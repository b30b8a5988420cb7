import JavaMachine.Proofs.Balance

/-!
# The operands that a handler finds

A handler should find the operands that its frame had at the start of the region that it guards,
and the exception on top of them.  The number of these operands is recorded nowhere.  Instead every
operand has the address of the instruction that pushed it, and those that were pushed at the start
of the region or behind it are dropped from the top on.

While a frame is in a region, whatever it pushes has an address of the region, so it has never more
operands from before the region than at its start.  This is the invariant here.  It goes through
all that happens between two instructions of the frame: calls of natives, frames that are entered
and left on top of it, and exceptions that are caught on the way.

When the operands of the start are still there, the handler therefore finds exactly those up to the
last one that was pushed before the region.  An operand that came from behind the start, over a
backward jump, is lost.
-/

namespace JavaMachine

open Relation (ReflTransGen)

/-! ## The operands of a frame -/

/-- The operands that a frame has when the frames above it are left. -/
def Machine.share (m : Machine) (above : List Frame) (f : Frame) : List Operand :=
  (m.operands.take (Frame.roof m.operands.length above)).drop f.stackBase

theorem Thread.operandDepth_eq (t : Thread) : t.operandDepth = t.frameOperands.length := by
  rw [operandDepth, frameOperands, List.length_drop, Array.length_toList]

/-- An operand that was pushed before an address. -/
def Operand.before (start : Nat) (o : Operand) : Bool := o.pushedAt < start

theorem Operand.foreign_before {start tag : Nat} (h : start ≤ tag) :
    Foreign tag (Operand.before start) := by
  intro o same
  rw [before, same]
  exact decide_eq_false (Nat.not_lt.mpr h)

/-- Some frames lie on top of a frame, which has at most so many operands from before a region. -/
structure Machine.Holds (below : List Frame) (start base bound : Nat) (above : List Frame)
    (f : Frame) (m : Machine) : Prop where
  /-- The frames are these. -/
  frames : m.frames = above ++ f :: below
  /-- The operands of the frame begin at a place. -/
  base : f.stackBase = base
  /-- It has at most so many from before the region. -/
  few : (m.share above f).countP (Operand.before start) ≤ bound

/-- The frame is inside an instruction of the region. -/
def Machine.Inside (below : List Frame) (start base bound : Nat) (m : Machine) : Prop :=
  ∃ above f, m.Holds below start base bound above f ∧ start ≤ f.instructionPc

/-- The frame is in front of an instruction of the region, or inside one if there are frames on top
of it. -/
def Machine.Between (below : List Frame) (start base bound : Nat) (m : Machine) : Prop :=
  ∃ above f, m.Holds below start base bound above f ∧ (above = [] → start ≤ f.pc) ∧
    (above ≠ [] → start ≤ f.instructionPc)

/-- A frame is still there, and is in front of an instruction of a region when it is the current
one. -/
def Machine.InRegion (below : List Frame) (row : Handler) (m : Machine) : Prop :=
  below.length < m.frames.length ∧ ∀ f, m.frames = f :: below → row.covers f.pc = true

namespace Machine

variable {below above above' : List Frame} {start base bound : Nat} {f f' : Frame} {m m' : Machine}

theorem InRegion.start_le {row : Handler} (h : m.InRegion below row) (current : m.frames = f :: below) :
    row.startPc.toNat ≤ f.pc := by
  have covered := h.2 f current
  rw [Handler.covers, Bool.and_eq_true, decide_eq_true_iff] at covered
  exact covered.1

theorem Inside.between {row : Handler} (h : m.Inside below row.startPc.toNat base bound)
    (resides : m.InRegion below row) : m.Between below row.startPc.toNat base bound := by
  obtain ⟨above, f, holds, region⟩ := h
  refine ⟨above, f, holds, fun empty => resides.start_le ?_, fun _ => region⟩
  rw [holds.frames, empty, List.nil_append]

/-- What comes in front of an instruction changes nothing of it. -/
theorem Between.begins (h : m.Between below start base bound) (begins : Exec.Begins m m') :
    m'.Between below start base bound := by
  obtain ⟨above, f, holds, called⟩ := h
  refine ⟨above, f, ⟨begins.sameStacks.frames.trans holds.frames, holds.base, ?_⟩, called⟩
  rw [share, begins.sameStacks.operands]
  exact holds.few

theorem share_nil : m.share [] f = m.operands.drop f.stackBase := by
  rw [share, Frame.roof, List.foldl_nil, List.take_length]

/-- What an instruction of the region has made of the operands. -/
theorem Holds.rework (h : m.Holds below start base bound above f) (region : start ≤ f.instructionPc)
    (frames : m'.frames = above' ++ f' :: below) (same : f'.stackBase = f.stackBase)
    (reworked : Reworked f.stackBase f.instructionPc
      (m.operands.take (Frame.roof m.operands.length above))
      (m'.operands.take (Frame.roof m'.operands.length above'))) :
    m'.Holds below start base bound above' f' where
  frames := frames
  base := same.trans h.base
  few := by
    have less := reworked.tags _ (Operand.foreign_before region)
    rw [share, same]
    exact Nat.le_trans less h.few

/-- The frame begins below the frames on top of it. -/
theorem base_le_roof (wf : m.thread.WellFormed) (frames : m.frames = above ++ f :: below) :
    f.stackBase ≤ (m.operands.take (Frame.roof m.operands.length above)).length := by
  have ordered := wf.ordered
  rw [show m.thread.frames = above ++ f :: below from frames, List.pairwise_append] at ordered
  have reached : f.stackBase ≤ m.operands.length := by
    rw [Array.length_toList]
    exact wf.reached f (by rw [show m.thread.frames = _ from frames]; simp)
  have lower : f.stackBase ≤ Frame.roof m.operands.length above :=
    Frame.le_roof above (fun g hg => ordered.2.2 g hg f List.mem_cons_self) reached
  rw [List.length_take]
  exact Nat.le_min.mpr ⟨lower, reached⟩

/-- What happens on top of the frame, or to its operands. -/
theorem Holds.moved (h : m.Holds below start base bound above f) (region : start ≤ f.instructionPc)
    (wf : m.thread.WellFormed) (moved : m.Moved .strict (f :: below) above m' above') :
    m'.Holds below start base bound above' f := by
  have itself : m.Retains (f :: below) (m.operands.take (Frame.roof m.operands.length above)) above :=
    .refl (base_le_roof wf h.frames)
  exact h.rework region moved.frames rfl (moved.retains rfl itself)

theorem take_roof_nil : m.operands.take (Frame.roof m.operands.length []) = m.operands := by
  rw [Frame.roof, List.foldl_nil, List.take_length]

/-- A frame on top is left. -/
theorem Holds.left {g : Frame} (h : m.Holds below start base bound (g :: above) f)
    (depths : List Nat) (events : Array Event) :
    (m.without [g] depths events).Holds below start base bound above f where
  frames := by
    have current : m.thread.frames = g :: above ++ f :: below := h.frames
    simp only [Machine.frames, without, current, List.length_singleton, List.cons_append,
      List.drop_one, List.tail_cons]
  base := h.base
  few := by
    have cut : (m.without [g] depths events).operands =
        m.operands.take (Frame.roof m.operands.length [g]) := by
      simp only [Machine.operands, without, Operand.toList_take, Array.length_toList]
    have length : (m.operands.take (Frame.roof m.operands.length [g])).length =
        Frame.roof m.operands.length [g] := by
      rw [List.length_take]
      exact Nat.min_eq_left (Frame.roof_le _ _)
    have roof : Frame.roof (Frame.roof m.operands.length [g]) above =
        Frame.roof m.operands.length (g :: above) := rfl
    have less : Frame.roof m.operands.length (g :: above) ≤ Frame.roof m.operands.length [g] :=
      Frame.roof_le above _
    rw [share, cut, length, roof, List.take_take, Nat.min_eq_left less]
    exact h.few

/-- A value is handed to the frame on top. -/
theorem Holds.handed (h : m.Holds below start base bound above f) (region : start ≤ f.instructionPc)
    (wf : m.thread.WellFormed) (v : Option Value) (bare : Bool) :
    (m.handed v bare).Holds below start base bound above f := by
  refine h.rework region h.frames rfl ?_
  rw [handed_operands]
  cases above with
  | nil =>
      have current : m.thread.frames = f :: below := h.frames
      have reached : f.stackBase ≤ m.operands.length := by
        rw [← Thread.stackBase_of_cons current]
        exact wf.base_le
      rw [Frame.roof, List.foldl_nil, List.take_length, Frame.roof, List.foldl_nil, List.take_length]
      refine .push reached fun o ho => ?_
      obtain ⟨w, -, rfl⟩ := List.mem_map.mp ho
      exact Thread.instructionPc_of_cons current
  | cons g above =>
      have reached : g.stackBase ≤ m.operands.length := by
        rw [Array.length_toList]
        exact wf.reached g (by rw [show m.thread.frames = _ from h.frames]; simp)
      have roof (more : Nat) : Frame.roof (m.operands.length + more) (g :: above) =
          Frame.roof m.operands.length (g :: above) := by
        have upper : min (m.operands.length + more) g.stackBase =
            min m.operands.length g.stackBase := by omega
        unfold Frame.roof
        rw [List.foldl_cons, List.foldl_cons, upper]
      rw [List.length_append, roof, List.take_append_of_le_length (Frame.roof_le _ _)]
      exact .refl (base_le_roof wf h.frames)

end Machine

namespace Exec

variable {host : Host} {level : Nat} {s : Settings} {m m' : Machine} {below : List Frame}
  {start base bound : Nat}

/-! ## Moves -/

theorem within_inside (wf : m.thread.WellFormed) (inside : m.Inside below start base bound)
    (within : m.Within m') : m'.Inside below start base bound := by
  obtain ⟨above, f, holds, region⟩ := inside
  by_cases empty : above = []
  · subst empty
    have current : m.thread.frames = f :: below := holds.frames
    have ahead : Frame.Ahead m.thread.frames m'.thread.frames := within.frames
    rw [current] at ahead
    obtain ⟨f', frames, later⟩ := ahead.of_cons
    have reworked := within.operands wf.base_le
    rw [Machine.base, Machine.tag, Thread.stackBase_of_cons current,
      Thread.instructionPc_of_cons current] at reworked
    refine ⟨[], f', holds.rework region frames later.stackBase ?_, ?_⟩
    · rwa [Machine.take_roof_nil, Machine.take_roof_nil]
    · rwa [later.instructionPc]
  · obtain ⟨above', moved⟩ := within_moved (d := .strict) wf holds.frames empty within
    exact ⟨above', f, holds.moved region wf moved, region⟩

theorem enters_inside (inside : m.Inside below start base bound) {g : Frame}
    (enters : Enters g m m') : m'.Inside below start base bound := by
  obtain ⟨above, f, holds, region⟩ := inside
  obtain ⟨mid, pushes, same⟩ := enters.pushes
  have frames : m'.frames = g :: m.frames := by
    rw [same]
    exact pushes.frames
  have operands : m'.operands = m.operands := by
    rw [same]
    exact pushes.operands
  have roof : Frame.roof m.operands.length (g :: above) = Frame.roof m.operands.length above := by
    unfold Frame.roof
    rw [List.foldl_cons, pushes.base, Nat.min_self]
  refine ⟨g :: above, f, ⟨?_, holds.base, ?_⟩, region⟩
  · rw [frames, holds.frames, List.cons_append]
  · rw [Machine.share, operands, roof]
    exact holds.few

section Strict

variable (hn : host.natives.Keep .strict host.toReentry) (hset : host.Settles)
  (hs : host.Spares .strict) (hu : host.Upholds .strict)

include hs hu

theorem move_inside (wf : m.thread.WellFormed) (inside : m.Inside below start base bound)
    (h : Move .strict host.toReentry s m m') : m'.Inside below start base bound := by
  cases h with
  | within within => exact within_inside wf inside within
  | enter _ enters => exact enters_inside inside enters
  | act act =>
      obtain ⟨above, f, holds, region⟩ := inside
      obtain ⟨above', moved, -⟩ := act_moved (.inr rfl) hs hu wf holds.frames (Nat.zero_le _) act
      exact ⟨above', f, holds.moved region wf moved, region⟩

theorem moves_inside (wf : m.thread.WellFormed) (inside : m.Inside below start base bound)
    (h : ReflTransGen (Move .strict host.toReentry s) m m') :
    m'.Inside below start base bound := by
  induction h with
  | refl => exact inside
  | tail steps last ih =>
      have wf' := (Machine.Upkeep.of_steps (fun _ _ => move_upkeep hu) steps).wellFormed wf
      exact move_inside hs hu wf' ih last

/-! ## Instructions -/

include hn hset

/-- An instruction of the region, or of a frame on top of the one that is there. -/
theorem step_inside (ready : Discipline.strict.Ready m) (wf : m.thread.WellFormed)
    (between : m.Between below start base bound) {flow : Flow} (h : step host s m = .ok flow m')
    (stays : below.length < m'.frames.length) : m'.Inside below start base bound := by
  obtain ⟨above, f, holds, ahead, called⟩ := between
  by_cases empty : above = []
  · subst empty
    have current : m.thread.frames = f :: below := holds.frames
    cases step_ok hn hset ready h with
    | @plain a _ g f' rest fetches moves =>
        have same := fetches.before.symm.trans current
        cases same
        have upkeep : m.Upkeep 0 a := fetches_upkeep fetches
        have operands : a.operands = m.operands := by rw [Machine.operands, fetches.thread]
        refine moves_inside hs hu (upkeep.wellFormed wf) ⟨[], f', ⟨fetches.frames, ?_, ?_⟩, ?_⟩ moves
        · exact fetches.fetched.stackBase.trans holds.base
        · have few := holds.few
          rw [Machine.share_nil] at few ⊢
          rwa [operands, fetches.fetched.stackBase]
        · rw [fetches.fetched.instructionPc]
          exact ahead rfl
    | @returned a b g f' rest v n outer events bare fetches yields depths marked =>
        -- the frame has left the region
        have same := fetches.before.symm.trans current
        cases same
        have frames : b.thread.frames = f' :: below := by
          rw [show b.thread.frames = a.thread.frames from yields.sameFrames.frames_eq]
          exact fetches.frames
        have left : ((b.without [f'] (n :: outer) events).handed v bare).frames = below := by
          simp only [Machine.frames, Machine.handed, Machine.without, frames, List.length_singleton,
            List.drop_one, List.tail_cons]
        rw [left] at stays
        exact absurd stays (Nat.lt_irrefl _)
  · have inside := called empty
    cases step_moved (.inr rfl) hn hset hs hu ready wf holds.frames (Nat.zero_le _) empty h with
    | @plain _ above' moved => exact ⟨above', f, holds.moved inside wf moved, inside⟩
    | @returned b g rest v n outer events bare wf' moved _ _ _ =>
        have holds' := (holds.moved inside wf moved).left (n :: outer) events
        have current : b.thread.frames = g :: (rest ++ f :: below) := moved.frames
        have upkeep : b.Upkeep 0 (b.without [g] (n :: outer) events) :=
          Machine.upkeep_without current _ _
        exact ⟨rest, f, holds'.handed inside (upkeep.wellFormed wf') v bare, inside⟩

end Strict

/-! ## Exceptions -/

/-- Going on at a handler enters no frame. -/
theorem Unwound.length_le {e : Handle} {cls : String} {o : Option RunOutcome}
    (h : Unwound host e cls level s m o m') (caught : o = none) :
    m'.frames.length ≤ m.frames.length := by
  induction h with
  | caught current _ =>
      simp only [Machine.frames, Machine.caught, current, List.length_cons]
      exact Nat.le_refl _
  | ended => cases caught
  | delivered => cases caught
  | @left m m' f rest n outer events o current _ _ ih =>
      refine Nat.le_trans (ih caught) ?_
      simp only [Machine.frames, Machine.without, List.length_drop]
      exact Nat.sub_le _ _

/-- An exception that is caught by the frame, or by one on top of it. -/
theorem Unwound.inside {e : Handle} {cls : String} {o : Option RunOutcome}
    (h : Unwound host e cls level s m o m') (caught : o = none) (wf : m.thread.WellFormed)
    (inside : m.Inside below start base bound) (stays : below.length < m'.frames.length) :
    m'.Inside below start base bound := by
  induction h with
  | @caught m g rest row events current lands =>
      obtain ⟨above, f, holds, region⟩ := inside
      cases above with
      | nil =>
          have same := current.symm.trans holds.frames
          cases same
          have reached : g.stackBase ≤ m.operands.length := by
            rw [← Thread.stackBase_of_cons current]
            exact wf.base_le
          have length : (m.operands.take g.stackBase).length = g.stackBase := by
            rw [List.length_take]
            exact Nat.min_eq_left reached
          have late : Operand.before start ⟨.object e, g.instructionPc⟩ = false :=
            Operand.foreign_before region _ rfl
          refine ⟨[], { g with pc := row.handlerPc.toNat }, ⟨rfl, holds.base, ?_⟩, region⟩
          have few := holds.few
          rw [Machine.share_nil] at few ⊢
          rw [without_caught_operands, Machine.take_roof_nil, caughtOperands, List.append_assoc,
            List.drop_left' length, List.countP_append, List.countP_singleton, late]
          exact Nat.le_trans (List.rdropWhile_prefix _ _).sublist.countP_le few
      | cons g' above =>
          have same := current.symm.trans holds.frames
          cases same
          exact ⟨_, f, holds.moved region wf (caught_moved wf holds.frames lands events), region⟩
  | ended => cases caught
  | delivered => cases caught
  | @left m m' g rest n outer events o current _ unwound ih =>
      obtain ⟨above, f, holds, region⟩ := inside
      have upkeep : m.Upkeep 0 (m.without [g] ((n + 1) :: outer) events) :=
        Machine.upkeep_without current _ _
      cases above with
      | nil =>
          -- the frame itself is left
          have same := current.symm.trans holds.frames
          cases same
          have short := unwound.length_le caught
          simp only [Machine.frames, Machine.without, current, List.length_singleton, List.drop_one,
            List.tail_cons] at short
          exact absurd stays (Nat.not_lt.mpr short)
      | cons g' above =>
          have same := current.symm.trans holds.frames
          cases same
          exact ih caught (upkeep.wellFormed wf) ⟨above, f, holds.left _ events, region⟩ stays

/-! ## Rounds -/

/-- A round after which the frame is still in the region. -/
def Resides (host : Host) (level : Nat) (s : Settings) (below : List Frame) (row : Handler)
    (m m' : Machine) : Prop := Round host level s m m' ∧ m'.InRegion below row

section Strict

variable {row : Handler} (hn : host.natives.Keep .strict host.toReentry) (hset : host.Settles)
  (hs : host.Spares .strict) (hu : host.Upholds .strict)

include hn hset hs hu

theorem round_between (ready : Discipline.strict.Ready m) (wf : m.thread.WellFormed)
    (between : m.Between below row.startPc.toNat base bound)
    (h : Resides host level s below row m m') :
    m'.Between below row.startPc.toNat base bound := by
  obtain ⟨round, resides⟩ := h
  refine Machine.Inside.between ?_ resides
  unfold Round at round
  generalize answer : none = o at round
  cases turn_ok round with
  | halted => cases answer
  | settled begins stepped _ =>
      exact step_inside hn hset hs hu (begins.ready ready)
        (begins.wellFormed wf)
        (between.begins begins.toBegins) stepped resides.1
  | @handled b c _ flow e _ begins stepped _ handled =>
      have wf' := begins.wellFormed wf
      have upkeep : b.Upkeep s.config.maxFrames c :=
        after_of_ok stepped ▸ step_upkeep hn hset hu (begins.ready ready)
      obtain ⟨cls, unwound⟩ := handleException_ok handled
      have stays := Nat.lt_of_lt_of_le resides.1 (unwound.length_le answer.symm)
      have inside := step_inside hn hset hs hu (begins.ready ready) wf' (between.begins begins.toBegins)
        stepped stays
      exact unwound.inside answer.symm (upkeep.wellFormed wf') inside resides.1

theorem rounds_between (ready : Discipline.strict.Ready m) (wf : m.thread.WellFormed)
    (between : m.Between below row.startPc.toNat base bound)
    (h : ReflTransGen (Resides host level s below row) m m') :
    m'.Between below row.startPc.toNat base bound ∧ m'.thread.WellFormed ∧
      Discipline.strict.Ready m' := by
  induction h with
  | refl => exact ⟨between, wf, ready⟩
  | @tail mid last _ round ih =>
      obtain ⟨between', wf', ready'⟩ := ih
      have upkeep : mid.Upkeep s.config.maxFrames last :=
        after_of_ok round.1 ▸ turn_upkeep hn hset hu ready'
      exact ⟨round_between hn hset hs hu ready' wf' between' round, upkeep.wellFormed wf',
        fun _ => round.1.pending_eq_none⟩

end Strict

end Exec

/-! ## The handler -/

namespace Operand

variable {start : Nat} {kept ops rest : List Operand}

theorem rdropWhile_append_late (late : ∀ o ∈ rest, start ≤ o.pushedAt) :
    ((kept ++ rest).rdropWhile fun o => start ≤ o.pushedAt) =
      kept.rdropWhile fun o => start ≤ o.pushedAt := by
  have dropped : ∀ o ∈ rest.reverse, decide (start ≤ o.pushedAt) = true := fun o ho =>
    decide_eq_true (late o (List.mem_reverse.mp ho))
  rw [List.rdropWhile, List.reverse_append, List.dropWhile_append_of_pos dropped, ← List.rdropWhile]

theorem rdropWhile_eq_self :
    (kept.rdropWhile fun o => start ≤ o.pushedAt) = kept ↔
      ∀ o ∈ kept.getLast?, o.pushedAt < start := by
  rw [List.rdropWhile_eq_self_iff]
  cases kept using List.reverseRecOn with
  | nil => simp
  | append_singleton init o => simp

/-- How many operands are left when those from the region are dropped: as many as reach up to the
last one from before the region. -/
theorem rdropWhile_length {k : Nat} (enough : k ≤ ops.length) :
    (ops.rdropWhile fun o => start ≤ o.pushedAt).length = k ↔
      (∀ o ∈ (ops.take k).getLast?, o.pushedAt < start) ∧ ∀ o ∈ ops.drop k, start ≤ o.pushedAt := by
  constructor
  · intro length
    let late : Operand → Bool := fun o => start ≤ o.pushedAt
    have split : ops.rdropWhile late ++ ops.rtakeWhile late = ops :=
      List.rdropWhile_append_rtakeWhile
    have taken : ops.take k = ops.rdropWhile late := by
      rw [← split, List.take_left' length, split]
    have dropped : ops.drop k = ops.rtakeWhile late := by
      rw [← split, List.drop_left' length, split]
    refine ⟨?_, fun o ho => ?_⟩
    · rw [taken, ← rdropWhile_eq_self]
      exact List.rdropWhile_idempotent _ _
    · rw [dropped] at ho
      have passed : late o = true := List.mem_rtakeWhile_imp ho
      exact of_decide_eq_true passed
  · rintro ⟨last, late⟩
    rw [← List.take_append_drop k ops, rdropWhile_append_late late, rdropWhile_eq_self.mpr last,
      List.length_take]
    exact Nat.min_eq_left enough

/-- When the operands of the start have stayed, all others are from the region. -/
theorem late_of_stays (stays : kept <+: ops)
    (few : ops.countP (before start) ≤ kept.countP (before start)) :
    ∀ o ∈ ops.drop kept.length, start ≤ o.pushedAt := by
  obtain ⟨rest, rfl⟩ := stays
  rw [List.drop_left]
  rw [List.countP_append] at few
  have none : rest.countP (before start) = 0 := by omega
  intro o ho
  have passed := List.countP_eq_zero.mp none o ho
  rwa [before, decide_eq_true_iff, Nat.not_lt] at passed

end Operand

/-- An execution of a frame that comes to the start of a region, stays in the region, and ends in an
exception that the row of the region catches. -/
structure Exec.Visits (host : Host) (level : Nat) (s : Settings) (row : Handler)
    (below : List Frame) (m : Machine) (above : List Frame) (f : Frame) (e : Handle)
    (last : Machine) : Prop where
  /-- The frame is in front of the start. -/
  entry : ∃ f, m.frames = f :: below ∧ f.pc = row.startPc.toNat
  /-- It stays in the region, and an instruction of it, or of a frame above it, is the last. -/
  rounds : ∃ mid b flow, ReflTransGen (Resides host level s below row) m mid ∧ Begins mid b ∧
    step host s b = .ok flow last
  /-- The exception is pending. -/
  raised : last.thread.pending = some e
  /-- Some frames are above the one that is in the region. -/
  frames : last.frames = above ++ f :: below
  /-- They are frames of the run. -/
  owned : above.length < last.thread.depth
  /-- The row is the one that catches the exception. -/
  selected : ∃ cls, last.world.heap.classOf e = .ok cls ∧
    (∀ g ∈ above, ∀ h ∈ g.method.handlers, ¬ g.Catches last.world.library cls.name h) ∧
    f.Selects last.world.library cls.name row
  /-- The handler is inside the code. -/
  lands : row.handlerPc.toNat < f.codeLength

/-! ## A small region -/

namespace Sample

open Exec Engine

/-- A row that guards two instructions. -/
def guard : Handler := ⟨1, 3, 3, none⟩

/-- A frame that throws what its local variable holds, in a region of its code.  The region is
reached with an operand from the instruction in front of it, or from one behind it and a jump. -/
def thrower (pc instructionPc : Nat) : Frame :=
  { frame [0x05, 0x2a, 0xbf, 0x57, 0xb1, 0x05, 0xa7, 0xff, 0xfb] [guard] 0 with
    pc, instructionPc, locals := #[.object ⟨0⟩] }

/-- The frame is in front of the region, with an operand that was pushed at an address. -/
def visitor (tag : Nat) : Machine where
  world := (machine [] #[] []).world
  thread :=
    { id := 0, frames := [thrower 1 0], operands := #[⟨.int 2, tag⟩], depths := [1], level := 1
      deepest := 1 }

/-- Two instructions later the exception is pending. -/
def visited (tag : Nat) : Machine :=
  (step (host coreNatives 2)).after {} ((turn (host coreNatives 2) 1).after {} (visitor tag))

theorem visitor_wellFormed (tag : Nat) : (visitor tag).thread.WellFormed :=
  ⟨List.pairwise_singleton _ _, by simp [visitor, thrower, frame],
    fun f hf => by rw [List.mem_singleton.mp hf]; decide, Nat.le_refl 1⟩

theorem visitor_visits (tag : Nat) : Visits (host coreNatives 2) 1 {} guard [] (visitor tag) []
    (thrower 3 2) ⟨0⟩ (visited tag) where
  entry := ⟨thrower 1 0, rfl, rfl⟩
  rounds := by
    have round : Round (host coreNatives 2) 1 {} (visitor tag)
        ((turn (host coreNatives 2) 1).after {} (visitor tag)) := by rfl
    have frames : ((turn (host coreNatives 2) 1).after {} (visitor tag)).frames =
        [thrower 2 1] := by rfl
    refine ⟨_, _, .next, .single ⟨round, ?_, ?_⟩, ⟨Std.Refl.refl _, rfl⟩, by rfl⟩
    · exact Nat.zero_lt_one
    · intro f current
      rw [frames] at current
      cases current
      rfl
  raised := by rfl
  frames := by rfl
  owned := Nat.zero_lt_one
  selected := ⟨cls, by rfl, by simp, [], [], rfl, ⟨by rfl, by simp [guard]⟩, by simp⟩
  lands := by decide

theorem visited_share (tag : Nat) :
    (visited tag).share [] (thrower 3 2) = (visitor tag).thread.frameOperands := by rfl

end Sample

/-! ## What a handler finds -/

namespace Engine

open Exec

variable {natives : Natives} (hn : ∀ n, natives.Keep .strict (reentry natives n)) {n level : Nat}
  {s : Settings} {row : Handler} {below above : List Frame} {m last : Machine} {f : Frame}
  {e : Handle}

include hn

/-- At the end of a visit the frame has no more operands from before the region than at its
start. -/
theorem visits_few (h : Visits (host natives n) level s row below m above f e last)
    (wf : m.thread.WellFormed) (clear : m.thread.pending = none) :
    last.thread.WellFormed ∧ (last.share above f).countP (Operand.before row.startPc.toNat) ≤
      m.thread.frameOperands.countP (Operand.before row.startPc.toNat) := by
  obtain ⟨g, current, entry⟩ := h.entry
  obtain ⟨mid, b, flow, rounds, begins, stepped⟩ := h.rounds
  have hu := upholds hn n
  have hs := spares (.inr rfl) hn n
  have hset := settles natives n
  have few : m.share [] g = m.thread.frameOperands := by
    rw [Machine.share_nil, Thread.frameOperands, Thread.stackBase_of_cons current]
  have between : m.Between below row.startPc.toNat g.stackBase
      (m.thread.frameOperands.countP (Operand.before row.startPc.toNat)) :=
    ⟨[], g, ⟨current, rfl, by rw [few]⟩, fun _ => Nat.le_of_eq entry.symm, fun h => absurd rfl h⟩
  obtain ⟨between', wf', ready'⟩ :=
    rounds_between (hn n) hset hs hu (fun _ => clear) wf between rounds
  have wf'' := begins.wellFormed wf'
  have upkeep : b.Upkeep s.config.maxFrames last :=
    after_of_ok stepped ▸ step_upkeep (hn n) hset hu (begins.ready ready')
  have stays : below.length < last.frames.length := by
    rw [h.frames, List.length_append, List.length_cons]
    omega
  obtain ⟨above', f', holds, -⟩ := step_inside (hn n) hset hs hu (begins.ready ready') wf''
    (between'.begins begins) stepped stays
  -- there is only one frame on top of those below
  have same : (above' ++ [f']) ++ below = (above ++ [f]) ++ below := by
    rw [List.append_assoc, List.append_assoc]
    exact holds.frames.symm.trans h.frames
  obtain ⟨rfl, top⟩ := List.append_inj' (List.append_cancel_right same) rfl
  cases top
  exact ⟨upkeep.wellFormed wf'', holds.few⟩

/-- A handler finds the exception on top of the operands of its frame.

They are as many as at the start of the region exactly if the last one of so many was pushed before
the region, and none above it was.  When the operands of the start have stayed, the last one of
them decides: those above it are from the region. -/
theorem handler_depth (h : Visits (host natives n) level s row below m above f e last)
    (wf : m.thread.WellFormed) (clear : m.thread.pending = none) :
    ∃ m', handleException (host natives n) e level s last = .ok none m' ∧
      m'.frames = { f with pc := row.handlerPc.toNat } :: below ∧
      m'.thread.frameOperands.getLast? = some ⟨.object e, f.instructionPc⟩ ∧
      (m.thread.operandDepth ≤ (last.share above f).length →
        (m'.thread.operandDepth = m.thread.operandDepth + 1 ↔
          (∀ o ∈ ((last.share above f).take m.thread.operandDepth).getLast?,
            o.pushedAt < row.startPc.toNat) ∧
          ∀ o ∈ (last.share above f).drop m.thread.operandDepth,
            row.startPc.toNat ≤ o.pushedAt)) ∧
      (m.thread.frameOperands <+: last.share above f →
        (m'.thread.operandDepth = m.thread.operandDepth + 1 ↔
          ∀ o ∈ m.thread.frameOperands.getLast?, o.pushedAt < row.startPc.toNat)) := by
  obtain ⟨wf', few⟩ := visits_few hn h wf clear
  obtain ⟨cls, known, uncaught, selected⟩ := h.selected
  obtain ⟨d, outer, counter⟩ : ∃ d outer, last.thread.depths = d :: outer := by
    have owned := h.owned
    unfold Thread.depth at owned
    cases depths : last.thread.depths with
    | nil => rw [depths] at owned; cases owned
    | cons d outer => exact ⟨d, outer, rfl⟩
  have owned : above.length < d := by
    have owned := h.owned
    rwa [Thread.depth, counter] at owned
  have run : ∃ events, handleException (host natives n) e level s last =
      .ok none ((last.without above ((d - above.length) :: outer) events).caught f below row e) :=
    handleException_caught counter known h.frames owned uncaught selected h.lands
  obtain ⟨events, run⟩ := run
  let kept := (last.share above f).rdropWhile fun o => row.startPc.toNat ≤ o.pushedAt
  let m' := (last.without above ((d - above.length) :: outer) events).caught f below row e
  have operands : m'.thread.frameOperands = kept ++ [⟨.object e, f.instructionPc⟩] := by
    let cut := last.operands.take (Frame.roof last.operands.length above)
    have whole : m'.operands = caughtOperands cut f row e := without_caught_operands _ _ _ _ _ _
    have length : (cut.take f.stackBase).length = f.stackBase := by
      rw [List.length_take]
      exact Nat.min_eq_left (Machine.base_le_roof wf' h.frames)
    have base : m'.thread.stackBase = f.stackBase := rfl
    rw [Thread.frameOperands, base, show m'.thread.operands.toList = _ from whole, caughtOperands,
      List.append_assoc, List.drop_left' length]
    rfl
  have depth : m'.thread.operandDepth = m.thread.operandDepth + 1 ↔
      kept.length = m.thread.operandDepth := by
    rw [Thread.operandDepth_eq m'.thread, operands, List.length_append, List.length_singleton,
      Nat.add_right_cancel_iff]
  refine ⟨m', run, rfl, ?_, fun enough => ?_, fun stays => ?_⟩
  · rw [operands]
    simp
  · rw [depth]
    exact Operand.rdropWhile_length enough
  · have late := Operand.late_of_stays stays few
    rw [depth, Thread.operandDepth_eq, Operand.rdropWhile_length stays.length_le,
      ← List.prefix_iff_eq_take.mp stays]
    exact and_iff_left late

omit hn

/-- An operand from the instruction in front of the region is still there in the handler. -/
theorem handler_depth_in_front : ∃ m',
    handleException (host coreNatives 2) ⟨0⟩ 1 {} (Sample.visited 0) = .ok none m' ∧
      m'.thread.operandDepth = 2 := by
  obtain ⟨m', run, -, -, -, depth⟩ := handler_depth (fun _ => coreNatives_keep .strict _)
    (Sample.visitor_visits 0) (Sample.visitor_wellFormed 0) rfl
  refine ⟨m', run, (depth ?_).mpr fun o last => ?_⟩
  · rw [Sample.visited_share]
  · cases last
    exact Nat.zero_lt_one

/-- An operand from behind the region is lost: the handler finds the exception alone. -/
theorem handler_depth_behind :
    Visits (host coreNatives 2) 1 {} Sample.guard [] (Sample.visitor 5) [] (Sample.thrower 3 2) ⟨0⟩
      (Sample.visited 5) ∧
    (Sample.visitor 5).thread.frameOperands <+: (Sample.visited 5).share [] (Sample.thrower 3 2) ∧
    (Sample.visitor 5).thread.operandDepth = 1 ∧
    ((handleException (host coreNatives 2) ⟨0⟩ 1).after {} (Sample.visited 5)).thread.operandDepth ≠
      1 + 1 := by
  refine ⟨Sample.visitor_visits 5, ?_, rfl, ?_⟩
  · rw [Sample.visited_share]
  · have lost : ((handleException (host coreNatives 2) ⟨0⟩ 1).after {}
        (Sample.visited 5)).thread.operandDepth = 1 := by rfl
    rw [lost]
    decide

end Engine

end JavaMachine
