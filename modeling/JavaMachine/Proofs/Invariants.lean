import JavaMachine.Proofs.Steps
import JavaMachine.Proofs.Turns

/-!
# What is the case of every machine

A thread stays well-formed whatever happens to it: the operands of its frames lie in the order of
the frames, each frame begins on the stack, and no frame leaves its code.  The longs and doubles in
its local variables keep their second slots.  `Upkeep` says this of two machines, and that the
number of frames was at no time larger than it had been before or than the largest number that is
allowed.  It is kept by every move of an instruction, by a frame that is
left and by a handler that is entered, and so, by induction on the budget of the engine, by every
call and every run, however they end.
-/

namespace JavaMachine

open Relation (ReflTransGen)

/-- The longs and doubles in the local variables of a thread have their second slots. -/
def Thread.Paired (t : Thread) : Prop := ∀ f ∈ t.frames, f.Paired

/-- Between two machines a thread has stayed well-formed, it has had at most so many frames unless
it had more before, and its marks are still set. -/
structure Machine.Upkeep (cap : Nat) (m m' : Machine) : Prop where
  /-- The thread has stayed well-formed. -/
  wellFormed : m.thread.WellFormed → m'.thread.WellFormed
  /-- Its longs and doubles have kept their second slots. -/
  paired : m.thread.Paired → m'.thread.Paired
  /-- It has not had more frames. -/
  deepest : m.thread.WellFormed → m'.thread.deepest ≤ max m.thread.deepest cap
  /-- A run that was left without its value stays so. -/
  bare : m.thread.bare = true → m'.thread.bare = true
  /-- A halted machine stays halted. -/
  halted : m.world.halted = true → m'.world.halted = true

namespace Machine

variable {cap : Nat} {m m' : Machine}

instance : IsPreorder Machine (Upkeep cap) where
  refl _ := ⟨id, id, fun _ => Nat.le_max_left _ _, id, id⟩
  trans _ _ _ first second :=
    { wellFormed := second.wellFormed ∘ first.wellFormed
      paired := second.paired ∘ first.paired
      deepest := fun wf => by
        have before := first.deepest wf
        have after := second.deepest (first.wellFormed wf)
        omega
      bare := second.bare ∘ first.bare
      halted := second.halted ∘ first.halted }

theorem Upkeep.of_steps {R : Machine → Machine → Prop} (hR : ∀ m m', R m m' → Upkeep cap m m')
    (h : ReflTransGen R m m') : Upkeep cap m m' := by
  induction h with
  | refl => exact Std.Refl.refl m
  | tail _ last ih => exact IsTrans.trans _ _ _ ih (hR _ _ last)

/-- Upkeep when the number of frames has not grown. -/
theorem Upkeep.of_wellFormed (wf : m.thread.WellFormed → m'.thread.WellFormed)
    (paired : m.thread.Paired → m'.thread.Paired)
    (deepest : m'.thread.deepest = m.thread.deepest)
    (bare : m.thread.bare = true → m'.thread.bare = true)
    (halted : m.world.halted = true → m'.world.halted = true) : Upkeep cap m m' :=
  ⟨wf, paired, fun _ => by rw [deepest]; exact Nat.le_max_left _ _, bare, halted⟩

end Machine

/-! ## Well-formed threads -/

namespace Thread

/-- In a well-formed thread the current frame begins on the stack, and every other one below it. -/
theorem WellFormed.base_le {t : Thread} (wf : t.WellFormed) : t.stackBase ≤ t.operands.toList.length := by
  rw [Array.length_toList]
  unfold stackBase
  cases frames : t.frames with
  | nil => exact Nat.zero_le _
  | cons f rest => exact wf.reached f (by rw [frames]; exact List.mem_cons_self)

theorem WellFormed.le_base {t : Thread} (wf : t.WellFormed) {f : Frame} (hf : f ∈ t.frames) :
    f.stackBase ≤ t.stackBase := by
  have ordered := wf.ordered
  unfold stackBase
  cases frames : t.frames with
  | nil => rw [frames] at hf; cases hf
  | cons g rest =>
      rw [frames] at hf ordered
      cases hf with
      | head => exact Nat.le_refl _
      | tail _ lower => exact (List.pairwise_cons.mp ordered).1 f lower

/-- The frames that are left when the current one is left. -/
theorem WellFormed.tail {t t' : Thread} {f : Frame} {rest : List Frame} (wf : t.WellFormed)
    (current : t.frames = f :: rest) (frames : t'.frames = rest)
    (reaches : f.stackBase ≤ t'.operands.size) (deepest : t'.deepest = t.deepest) :
    t'.WellFormed := by
  have ordered := wf.ordered
  rw [current, List.pairwise_cons] at ordered
  refine ⟨?_, fun g hg => ?_, fun g hg => ?_, ?_⟩
  · rw [frames]
    exact ordered.2
  · rw [frames] at hg
    exact Nat.le_trans (ordered.1 g hg) reaches
  · rw [frames] at hg
    exact wf.inside g (by rw [current]; exact List.mem_cons_of_mem f hg)
  · have marked := wf.marked
    rw [current, List.length_cons] at marked
    rw [frames, deepest]
    omega

/-- Another current frame that begins at the same place. -/
theorem WellFormed.replace {t t' : Thread} {f f' : Frame} {rest : List Frame} (wf : t.WellFormed)
    (current : t.frames = f :: rest) (frames : t'.frames = f' :: rest)
    (base : f'.stackBase = f.stackBase) (pc : f'.pc ≤ f'.codeLength)
    (reaches : f.stackBase ≤ t'.operands.size) (deepest : t'.deepest = t.deepest) :
    t'.WellFormed := by
  have ordered := wf.ordered
  rw [current, List.pairwise_cons] at ordered
  refine ⟨?_, fun g hg => ?_, fun g hg => ?_, ?_⟩
  · rw [frames, List.pairwise_cons, base]
    exact ordered
  · rw [frames] at hg
    cases hg with
    | head => rwa [base]
    | tail _ lower => exact Nat.le_trans (ordered.1 g lower) reaches
  · rw [frames] at hg
    cases hg with
    | head => exact pc
    | tail _ lower => exact wf.inside g (by rw [current]; exact List.mem_cons_of_mem f lower)
  · have marked := wf.marked
    rw [current, List.length_cons] at marked
    rw [frames, deepest, List.length_cons]
    exact marked

/-- The same frames on a stack that still reaches the current one. -/
theorem WellFormed.rework {t t' : Thread} (wf : t.WellFormed) (frames : t'.frames = t.frames)
    (reaches : t.stackBase ≤ t'.operands.size) (deepest : t'.deepest = t.deepest) :
    t'.WellFormed where
  ordered := by rw [frames]; exact wf.ordered
  reached f hf := by
    rw [frames] at hf
    exact Nat.le_trans (wf.le_base hf) reaches
  inside f hf := by
    rw [frames] at hf
    exact wf.inside f hf
  marked := by rw [frames, deepest]; exact wf.marked

/-- Another current frame that keeps the second slots. -/
theorem Paired.replace {t t' : Thread} {f f' : Frame} {rest : List Frame} (paired : t.Paired)
    (current : t.frames = f :: rest) (frames : t'.frames = f' :: rest)
    (kept : f.Paired → f'.Paired) : t'.Paired := by
  intro g hg
  rw [frames] at hg
  cases hg with
  | head => exact kept (paired f (by rw [current]; exact List.mem_cons_self))
  | tail _ lower => exact paired g (by rw [current]; exact List.mem_cons_of_mem f lower)

/-- Fewer frames, or the same. -/
theorem Paired.mono {t t' : Thread} (paired : t.Paired) (fewer : t'.frames ⊆ t.frames) :
    t'.Paired :=
  fun f hf => paired f (fewer hf)

end Thread

/-! ## Moves -/

namespace Machine

variable {cap : Nat} {m m' : Machine}

theorem Within.wellFormed (h : m.Within m') (wf : m.thread.WellFormed) :
    m'.thread.WellFormed := by
  have reaches : m.base ≤ m'.thread.operands.size := by
    have reworked := h.operands wf.base_le
    rw [← Array.length_toList]
    exact reworked.reaches
  have ahead : Frame.Ahead m.thread.frames m'.thread.frames := h.frames
  generalize before : m.thread.frames = fs, after : m'.thread.frames = fs' at ahead
  cases ahead with
  | same => exact wf.rework (after.trans before.symm) reaches h.deepest
  | @moved f f' rest later =>
      have base : m.base = f.stackBase := Thread.stackBase_of_cons before
      have inside := wf.inside f (by rw [before]; exact List.mem_cons_self)
      exact wf.replace before after later.stackBase (later.pc inside) (base ▸ reaches) h.deepest

theorem Within.paired (h : m.Within m') (paired : m.thread.Paired) : m'.thread.Paired := by
  have ahead : Frame.Ahead m.thread.frames m'.thread.frames := h.frames
  generalize before : m.thread.frames = fs, after : m'.thread.frames = fs' at ahead
  cases ahead with
  | same => exact paired.mono (by rw [after, before]; exact List.Subset.refl _)
  | moved rest later => exact paired.replace before after later.paired

theorem Within.upkeep (h : m.Within m') : Upkeep cap m m' :=
  .of_wellFormed h.wellFormed h.paired h.deepest (fun bare => h.bare.trans bare) h.halted

theorem pushes_upkeep {f : Frame} (h : Pushes f m m')
    (room : m.frames.length < cap) : Upkeep cap m m' where
  wellFormed wf :=
    { ordered := by
        rw [show m'.thread.frames = f :: m.thread.frames from h.frames, List.pairwise_cons]
        refine ⟨fun g hg => ?_, wf.ordered⟩
        rw [h.base, Array.length_toList]
        exact wf.reached g hg
      reached := fun g hg => by
        rw [show m'.thread.frames = f :: m.thread.frames from h.frames] at hg
        rw [← Array.length_toList, show m'.thread.operands.toList = m.operands from h.operands]
        cases hg with
        | head => exact Nat.le_of_eq h.base
        | tail _ lower =>
            rw [Array.length_toList]
            exact wf.reached g lower
      inside := fun g hg => by
        rw [show m'.thread.frames = f :: m.thread.frames from h.frames] at hg
        cases hg with
        | head => exact h.pc
        | tail _ lower => exact wf.inside g lower
      marked := by
        rw [show m'.thread.frames = f :: m.thread.frames from h.frames, h.deepest,
          List.length_cons]
        exact Nat.le_max_right _ _ }
  paired paired g hg := by
    rw [show m'.thread.frames = f :: m.thread.frames from h.frames] at hg
    cases hg with
    | head => exact h.paired
    | tail _ lower => exact paired g lower
  deepest _ := by
    rw [h.deepest]
    omega
  bare bare := h.bare.trans bare
  halted := h.halted

theorem enters_upkeep {f : Frame} (h : Enters f m m') (room : m.frames.length < cap) :
    Upkeep cap m m' := by
  obtain ⟨mid, pushes, same⟩ := h.pushes
  have first : Upkeep cap m mid := pushes_upkeep pushes room
  rw [same]
  exact ⟨fun wf => first.wellFormed wf |>.rework rfl (first.wellFormed wf).base_le rfl,
    first.paired, first.deepest, first.bare, first.halted⟩

theorem upkeep_withDepths (depths : List Nat) : Upkeep cap m (m.withDepths depths) :=
  .of_wellFormed (fun wf => wf.rework rfl wf.base_le rfl) id rfl id id

theorem upkeep_atLevel (level : Nat) : Upkeep cap m (m.atLevel level) :=
  .of_wellFormed (fun wf => wf.rework rfl wf.base_le rfl) id rfl id id

theorem upkeep_prepared (args : List Value) (events : Array Event) :
    Upkeep cap m (m.prepared args events) := by
  refine .of_wellFormed (fun wf => wf.rework rfl ?_ rfl) id rfl id id
  have reaches := wf.base_le
  simp only [prepared, Array.size_append]
  rw [Array.length_toList] at reaches
  omega

/-- Leaving the current frame. -/
theorem upkeep_without {f : Frame} {rest : List Frame} (current : m.thread.frames = f :: rest)
    (depths : List Nat) (events : Array Event) : Upkeep cap m (m.without [f] depths events) := by
  have frames : (m.without [f] depths events).thread.frames = rest := by
    simp only [without, current, List.length_singleton, List.drop_one, List.tail_cons]
  have fewer : (m.without [f] depths events).thread.frames ⊆ m.thread.frames := by
    rw [frames, current]
    exact List.subset_cons_self f rest
  refine .of_wellFormed (fun wf => ?_) (fun paired => paired.mono fewer) rfl id id
  have reached := wf.reached f (by rw [current]; exact List.mem_cons_self)
  refine wf.tail current frames ?_ rfl
  simp only [without, Frame.roof, List.foldl_cons, List.foldl_nil, ← Array.length_toList,
    Operand.toList_take, List.length_take]
  rw [Array.length_toList]
  omega

theorem upkeep_handed (v : Option Value) {bare : Bool}
    (marked : m.thread.bare = true → bare = true) : Upkeep cap m (m.handed v bare) := by
  refine .of_wellFormed (fun wf => wf.rework rfl ?_ rfl) id rfl marked id
  have reaches := wf.base_le
  simp only [handed, Array.size_append]
  rw [Array.length_toList] at reaches
  omega

/-- Going on at a handler. -/
theorem upkeep_caught {f : Frame} {rest : List Frame} {h : Handler} {exception : Handle}
    (current : m.thread.frames = f :: rest) (inside : h.handlerPc.toNat < f.codeLength)
    (events : Array Event) :
    Upkeep cap m ((m.without [] m.thread.depths events).caught f rest h exception) := by
  refine .of_wellFormed (fun wf => ?_) (fun paired => paired.replace current rfl id) rfl id id
  have reached := wf.reached f (by rw [current]; exact List.mem_cons_self)
  refine wf.replace current rfl rfl (Nat.le_of_lt inside) ?_ rfl
  rw [without_nil]
  simp only [caught, caughtOperands, List.size_toArray, List.length_append, List.length_take,
    operands, Array.length_toList]
  omega

end Machine

/-! ## Instructions -/

/-- Whatever is done through the ways back into a machine that is ready keeps it up. -/
structure Reentry.Upholds (d : Discipline) (r : Reentry) : Prop where
  /-- A call keeps the machine up. -/
  call : ∀ cls decl args s m, d.Ready m →
    Machine.Upkeep s.config.maxFrames m ((r.call cls decl args).after s m)
  /-- A run keeps the machine up. -/
  run : ∀ s m, d.Ready m → Machine.Upkeep s.config.maxFrames m (r.run.after s m)

namespace Exec

variable {d : Discipline} {r : Reentry} {host : Host} {level : Nat} {s : Settings}
  {m m' : Machine}

theorem act_upkeep (hr : r.Upholds d) (h : Act d r s m m') :
    m.Upkeep s.config.maxFrames m' := by
  cases h with
  | work sameFrames => exact sameFrames.toWithin.upkeep
  | call ready called => exact after_of_ok called ▸ hr.call _ _ _ s m ready
  | caught _ ready called => exact after_of_error called ▸ hr.call _ _ _ s m ready

theorem actStop_upkeep (hr : r.Upholds d) {stop : Stop} (h : ActStop d r s stop m m') :
    m.Upkeep s.config.maxFrames m' := by
  cases h with
  | own sameFrames => exact sameFrames.toWithin.upkeep
  | called ready called sameThread =>
      exact IsTrans.trans _ _ _ (after_of_error called ▸ hr.call _ _ _ s m ready)
        sameThread.sameFrames.toWithin.upkeep

theorem move_upkeep (hr : r.Upholds d) (h : Move d r s m m') :
    m.Upkeep s.config.maxFrames m' := by
  cases h with
  | within within => exact within.upkeep
  | enter room enters => exact Machine.enters_upkeep enters room
  | act act => exact act_upkeep hr act

theorem moveStop_upkeep (hr : r.Upholds d) {stop : Stop} (h : MoveStop d r s stop m m') :
    m.Upkeep s.config.maxFrames m' := by
  cases h with
  | within within => exact within.upkeep
  | pushed room pushes => exact Machine.pushes_upkeep pushes room
  | act stops => exact actStop_upkeep hr stops

theorem fetches_upkeep {f f' : Frame} {rest : List Frame} {cap : Nat}
    (h : Fetches f f' rest m m') : m.Upkeep cap m' := by
  refine .of_wellFormed (fun wf => ?_)
    (fun paired => paired.replace h.before h.frames h.fetched.paired) (by rw [h.thread])
    (fun bare => by rw [h.thread]; exact bare) h.halted
  have top : f ∈ m.thread.frames := by rw [h.before]; exact List.mem_cons_self
  refine wf.replace h.before h.frames h.fetched.stackBase (h.fetched.pc (wf.inside f top)) ?_ ?_
  · rw [h.thread]
    exact wf.reached f top
  · rw [h.thread]

/-- An instruction keeps the machine up, however it ends. -/
theorem step_upkeep (hn : host.natives.Keep d host.toReentry) (hset : host.Settles)
    (hr : host.Upholds d) (ready : d.Ready m) :
    m.Upkeep s.config.maxFrames ((step host).after s m) := by
  cases run : step host s m with
  | ok flow m' =>
      rw [after_of_ok run]
      cases step_ok hn hset ready run with
      | plain fetches moves =>
          exact IsTrans.trans _ _ _ (fetches_upkeep fetches)
            (.of_steps (fun _ _ => move_upkeep hr) moves)
      | returned fetches yields _ bare =>
          refine IsTrans.trans _ _ _ (fetches_upkeep fetches)
            (IsTrans.trans _ _ _ yields.sameFrames.toWithin.upkeep ?_)
          refine IsTrans.trans _ _ _
            (Machine.upkeep_without (yields.frames fetches.frames) _ _)
            (Machine.upkeep_handed _ fun marked => bare.mpr (.inl marked))
  | error stop m' =>
      rw [after_of_error run]
      cases step_error hn hset ready run with
      | unfetched => exact Std.Refl.refl m
      | moved fetches moves stops =>
          exact IsTrans.trans _ _ _ (fetches_upkeep fetches)
            (IsTrans.trans _ _ _ (.of_steps (fun _ _ => move_upkeep hr) moves)
              (moveStop_upkeep hr stops))
      | uncounted fetches yields _ =>
          refine IsTrans.trans _ _ _ (fetches_upkeep fetches)
            (IsTrans.trans _ _ _ yields.sameFrames.toWithin.upkeep ?_)
          exact IsTrans.trans _ _ _
            (Machine.upkeep_without (yields.frames fetches.frames) _ _)
            (Machine.upkeep_handed _ id)

/-! ## Exceptions -/

theorem deliverUncaught_upkeep (hr : host.Upholds d) (exception : Handle) :
    m.Upkeep s.config.maxFrames ((deliverUncaught host exception).after s m) := by
  have along := deliverUncaught_along (acts_calls (d := d) host) exception
  cases run : deliverUncaught host exception s m with
  | ok o m' =>
      rw [after_of_ok run]
      exact .of_steps (fun _ _ => act_upkeep hr) (along.of_ok trivial run).1
  | error stop m' =>
      rw [after_of_error run]
      obtain ⟨mid, steps, stops⟩ := along.of_error trivial run
      exact IsTrans.trans _ _ _ (.of_steps (fun _ _ => act_upkeep hr) steps)
        (actStop_upkeep hr stops)

theorem Unwound.upkeep (hr : host.Upholds d) {exception : Handle} {cls : String}
    {o : Option RunOutcome} (h : Unwound host exception cls level s m o m') :
    m.Upkeep s.config.maxFrames m' := by
  induction h with
  | caught current inside => exact Machine.upkeep_caught current inside _
  | ended current _ _ => exact Machine.upkeep_without current _ _
  | delivered current _ _ delivered =>
      exact IsTrans.trans _ _ _ (Machine.upkeep_without current _ _)
        (after_of_ok delivered ▸ deliverUncaught_upkeep hr exception)
  | left current _ _ ih => exact IsTrans.trans _ _ _ (Machine.upkeep_without current _ _) ih

theorem UnwindStop.upkeep (hr : host.Upholds d) {exception : Handle} {stop : Stop}
    (h : UnwindStop host exception s stop m m') : m.Upkeep s.config.maxFrames m' := by
  induction h with
  | here sameFrames => exact sameFrames.toWithin.upkeep
  | uncounted current _ => exact Machine.upkeep_without current _ _
  | delivering current _ stopped =>
      exact IsTrans.trans _ _ _ (Machine.upkeep_without current _ _)
        (after_of_error stopped ▸ deliverUncaught_upkeep hr exception)
  | left current _ _ ih => exact IsTrans.trans _ _ _ (Machine.upkeep_without current _ _) ih

theorem handleException_upkeep (hr : host.Upholds d) (exception : Handle) :
    m.Upkeep s.config.maxFrames ((handleException host exception level).after s m) := by
  cases run : handleException host exception level s m with
  | ok o m' =>
      rw [after_of_ok run]
      obtain ⟨cls, unwound⟩ := handleException_ok run
      exact unwound.upkeep hr
  | error stop m' =>
      rw [after_of_error run]
      exact (handleException_error run).upkeep hr

/-! ## Turns and runs -/

theorem Unwound.pending_eq_none {exception : Handle} {cls : String} {o : Option RunOutcome}
    (h : Unwound host exception cls level s m o m') (caught : o = none) :
    m'.thread.pending = none := by
  induction h with
  | caught => rfl
  | ended => cases caught
  | delivered => cases caught
  | left _ _ _ ih => exact ih caught

/-- A turn after which the run goes on leaves no exception pending. -/
theorem Round.pending_eq_none (h : Round host level s m m') : m'.thread.pending = none := by
  unfold Round at h
  generalize answer : none = o at h
  cases turn_ok h with
  | halted => cases answer
  | settled _ _ pending => exact pending
  | handled _ _ _ handled =>
      obtain ⟨cls, unwound⟩ := handleException_ok handled
      exact unwound.pending_eq_none answer.symm

theorem Begins.ready (h : Begins m m') (ready : d.Ready m) : d.Ready m' :=
  fun clear => h.samePending.trans (ready clear)

theorem Begins.wellFormed (h : Begins m m') (wf : m.thread.WellFormed) : m'.thread.WellFormed :=
  h.sameStacks.sameFrames.wellFormed wf

theorem Begins.upkeep {cap : Nat} (h : Begins m m') : m.Upkeep cap m' :=
  h.sameStacks.sameFrames.toWithin.upkeep

theorem turn_upkeep (hn : host.natives.Keep d host.toReentry) (hset : host.Settles)
    (hr : host.Upholds d) (ready : d.Ready m) :
    m.Upkeep s.config.maxFrames ((turn host level).after s m) := by
  cases run : turn host level s m with
  | ok o m' =>
      rw [after_of_ok run]
      cases turn_ok run with
      | halted sameThread _ => exact sameThread.sameFrames.toWithin.upkeep
      | settled begins stepped _ =>
          exact IsTrans.trans _ _ _ begins.upkeep
            (after_of_ok stepped ▸ step_upkeep hn hset hr (begins.ready ready))
      | handled begins stepped _ handled =>
          exact IsTrans.trans _ _ _ begins.upkeep
            (IsTrans.trans _ _ _
              (after_of_ok stepped ▸ step_upkeep hn hset hr (begins.ready ready))
              (after_of_ok handled ▸ handleException_upkeep hr _))
  | error stop m' =>
      rw [after_of_error run]
      cases turn_error run with
      | before sameStacks => exact sameStacks.sameFrames.toWithin.upkeep
      | inside begins stepped =>
          exact IsTrans.trans _ _ _ begins.upkeep
            (after_of_error stepped ▸ step_upkeep hn hset hr (begins.ready ready))
      | handling begins stepped _ handled =>
          exact IsTrans.trans _ _ _ begins.upkeep
            (IsTrans.trans _ _ _
              (after_of_ok stepped ▸ step_upkeep hn hset hr (begins.ready ready))
              (after_of_error handled ▸ handleException_upkeep hr _))

theorem rounds_upkeep (hn : host.natives.Keep d host.toReentry) (hset : host.Settles)
    (hr : host.Upholds d) (ready : d.Ready m) (h : ReflTransGen (Round host level s) m m') :
    m.Upkeep s.config.maxFrames m' ∧ d.Ready m' := by
  induction h with
  | refl => exact ⟨Std.Refl.refl m, ready⟩
  | @tail mid last _ round ih =>
      have next : mid.Upkeep s.config.maxFrames last :=
        after_of_ok round ▸ turn_upkeep hn hset hr ih.2
      exact ⟨IsTrans.trans _ _ _ ih.1 next, fun _ => round.pending_eq_none⟩

theorem loop_upkeep (hn : host.natives.Keep d host.toReentry) (hset : host.Settles)
    (hr : host.Upholds d) (ready : d.Ready m) (n : Nat) :
    m.Upkeep s.config.maxFrames ((loop host level n).after s m) := by
  cases run : loop host level n s m with
  | ok o m' =>
      rw [after_of_ok run]
      obtain ⟨last, rounds, final⟩ := loop_ok run
      obtain ⟨upkeep, ready'⟩ := rounds_upkeep hn hset hr ready rounds
      exact IsTrans.trans _ _ _ upkeep
        (after_of_ok final ▸ turn_upkeep hn hset hr ready')
  | error stop m' =>
      rw [after_of_error run]
      obtain ⟨last, rounds, final⟩ := loop_error run
      obtain ⟨upkeep, ready'⟩ := rounds_upkeep hn hset hr ready rounds
      obtain failed | ⟨-, rfl⟩ := final
      · exact IsTrans.trans _ _ _ upkeep
          (after_of_error failed ▸ turn_upkeep hn hset hr ready')
      · exact upkeep

theorem runLoop_upkeep (hn : host.natives.Keep d host.toReentry) (hset : host.Settles)
    (hr : host.Upholds d) (ready : d.Ready m) (n : Nat) :
    m.Upkeep s.config.maxFrames ((runLoop host n).after s m) := by
  have looped : (m.atLevel (m.thread.level + 1)).Upkeep s.config.maxFrames
      ((loop host (m.thread.level + 1) n).after s (m.atLevel (m.thread.level + 1))) :=
    loop_upkeep (m := m.atLevel (m.thread.level + 1)) hn hset hr ready n
  have entered : m.Upkeep s.config.maxFrames (m.atLevel (m.thread.level + 1)) :=
    Machine.upkeep_atLevel _
  cases run : runLoop host n s m with
  | ok o m' =>
      rw [after_of_ok run]
      obtain ⟨mid, ran, rfl⟩ := runLoop_ok run
      rw [after_of_ok ran] at looped
      exact IsTrans.trans _ _ _ entered (IsTrans.trans _ _ _ looped (Machine.upkeep_atLevel _))
  | error stop m' =>
      rw [after_of_error run]
      obtain ⟨mid, ran, ⟨-, rfl⟩ | ⟨-, rfl⟩⟩ := runLoop_error run
      · rw [after_of_error ran] at looped
        exact IsTrans.trans _ _ _ entered (IsTrans.trans _ _ _ looped (Machine.upkeep_atLevel _))
      · rw [after_of_error ran] at looped
        exact IsTrans.trans _ _ _ entered looped

/-! ## Calls -/

theorem invoke_upkeep (hn : host.natives.Keep d host.toReentry) (hr : host.Upholds d)
    (ready : d.Ready m) (cls : LoadedClass) (decl : MethodDecl) :
    m.Upkeep s.config.maxFrames ((invoke host cls decl).after s m) := by
  have along := invoke_along hn cls decl
  cases run : invoke host cls decl s m with
  | ok entered m' =>
      rw [after_of_ok run]
      exact .of_steps (fun _ _ => move_upkeep hr) (along.of_ok ready run).1
  | error stop m' =>
      rw [after_of_error run]
      obtain ⟨mid, steps, stops⟩ := along.of_error ready run
      exact IsTrans.trans _ _ _ (.of_steps (fun _ _ => move_upkeep hr) steps)
        (moveStop_upkeep hr stops)

/-- A frame is entered only for a machine that is ready, and leaves it ready. -/
theorem invoke_ready (hn : host.natives.Keep d host.toReentry) (ready : d.Ready m)
    {cls : LoadedClass} {decl : MethodDecl} (h : invoke host cls decl s m = .ok true m') :
    d.Ready m' := by
  cases invoke_ok hn ready h with
  | entered _ _ _ _ _ still => exact fun clear => still.trans (ready clear)

theorem Ran.upkeep (hn : host.natives.Keep d host.toReentry) (hr : host.Upholds d)
    (ready : d.Ready m) {cls : LoadedClass} {decl : MethodDecl} {o : RunOutcome}
    (h : Ran host cls decl s m o m') : m.Upkeep s.config.maxFrames m' := by
  have invoked := invoke_upkeep (s := s) hn hr ready cls decl
  cases h with
  | run entered ran =>
      exact IsTrans.trans _ _ _ (after_of_ok entered ▸ invoked)
        (after_of_ok ran ▸ hr.run s _ (invoke_ready hn ready entered))
  | done unentered _ => exact after_of_ok unentered ▸ invoked
  | threw unentered _ _ => exact after_of_ok unentered ▸ invoked
  | uncaught unentered _ _ delivered =>
      exact IsTrans.trans _ _ _ (after_of_ok unentered ▸ invoked)
        (after_of_ok delivered ▸ deliverUncaught_upkeep hr _)

theorem RanStop.upkeep (hn : host.natives.Keep d host.toReentry) (hr : host.Upholds d)
    (ready : d.Ready m) {cls : LoadedClass} {decl : MethodDecl} {stop : Stop}
    (h : RanStop host cls decl s m stop m') : m.Upkeep s.config.maxFrames m' := by
  have invoked := invoke_upkeep (s := s) hn hr ready cls decl
  cases h with
  | invoking failed => exact after_of_error failed ▸ invoked
  | running entered failed =>
      exact IsTrans.trans _ _ _ (after_of_ok entered ▸ invoked)
        (after_of_error failed ▸ hr.run s _ (invoke_ready hn ready entered))
  | delivering unentered failed =>
      exact IsTrans.trans _ _ _ (after_of_ok unentered ▸ invoked)
        (after_of_error failed ▸ deliverUncaught_upkeep hr _)

theorem execute_upkeep (hn : host.natives.Keep d host.toReentry) (hr : host.Upholds d)
    (ready : d.Ready m) (cls : LoadedClass) (decl : MethodDecl) (args : List Value) :
    m.Upkeep s.config.maxFrames ((execute host cls decl args).after s m) := by
  have prepared (events : Array Event) : m.Upkeep s.config.maxFrames (m.prepared args events) :=
    Machine.upkeep_prepared args events
  have still (events : Array Event) : d.Ready (m.prepared args events) := ready
  cases run : execute host cls decl args s m with
  | ok i m' =>
      rw [after_of_ok run]
      obtain ⟨-, events, outcome, ran, k, outer, ran', -, concluded⟩ := execute_ok run
      exact IsTrans.trans _ _ _ (prepared events) (IsTrans.trans _ _ _
        (ran'.upkeep hn hr (still events)) (IsTrans.trans _ _ _ (Machine.upkeep_withDepths outer)
          (Machine.Within.upkeep ((conclude_keeps _ _ _).of_ok concluded))))
  | error stop m' =>
      rw [after_of_error run]
      cases execute_error run with
      | refused => exact Std.Refl.refl m
      | @paused _ events _ _ stops =>
          exact IsTrans.trans _ _ _ (prepared events) (stops.upkeep hn hr (still events))
      | @faulted ran events k outer _ _ stops _ =>
          exact IsTrans.trans _ _ _ (prepared events) (IsTrans.trans _ _ _
            (stops.upkeep hn hr (still events)) (Machine.upkeep_withDepths outer))
      | @concluding _ ran events _ k outer _ ran' _ concluded =>
          exact IsTrans.trans _ _ _ (prepared events) (IsTrans.trans _ _ _
            (ran'.upkeep hn hr (still events)) (IsTrans.trans _ _ _
              (Machine.upkeep_withDepths outer)
              (Machine.Within.upkeep ((conclude_keeps _ _ _).of_error concluded))))
      | @uncounted _ events _ ran _ =>
          obtain ⟨outcome, ran⟩ | ⟨e, ran⟩ := ran
          · exact IsTrans.trans _ _ _ (prepared events) (ran.upkeep hn hr (still events))
          · exact IsTrans.trans _ _ _ (prepared events) (ran.upkeep hn hr (still events))

end Exec

namespace Engine

open Exec

/-- Every call and every run keeps the machine up, however it ends. -/
theorem upholds {natives : Natives} {d : Discipline}
    (hn : ∀ n, natives.Keep d (reentry natives n)) (n : Nat) : (reentry natives n).Upholds d := by
  induction n with
  | zero =>
      refine ⟨fun cls decl args s m ready => ?_, fun s m ready => ?_⟩
      · exact after_of_error (reentry_call_zero natives cls decl args s m) ▸ Std.Refl.refl m
      · exact after_of_error (reentry_run_zero natives s m) ▸ Std.Refl.refl m
  | succ n ih =>
      refine ⟨fun cls decl args s m ready => ?_, fun s m ready => ?_⟩
      · rw [reentry_call_succ]
        exact execute_upkeep (hn n) ih ready cls decl args
      · rw [reentry_run_succ]
        exact runLoop_upkeep (hn n) (settles natives n) ih ready n

end Engine

end JavaMachine
