import JavaMachine.Proofs.Delivery

/-!
# Outcomes and pending exceptions

The outcome of a run says what has become of an exception: a run inside another one leaves it
pending, and the outermost one delivers it and leaves nothing pending.  `RunOutcome.Leaves` and
`Invocation.Leaves` state this of outcomes and of calls, and `Engine.truthful` proves it of every
call that comes to a result.  What decides is the level of the thread where the call begins; it is
the same again wherever a computation has a result or stops in a fault.

The level counts runs, not calls.  A native that is called outside all runs is at level zero, and so
are the calls that it makes.
-/

namespace JavaMachine

/-! ## The level -/

/-- As many runs are in progress in two machines. -/
def Machine.SameLevel (m m' : Machine) : Prop := m'.thread.level = m.thread.level

instance : IsPreorder Machine Machine.SameLevel where
  refl _ := rfl
  trans _ _ _ first second := second.trans first

namespace Exec

variable {host : Host} {s : Settings} {m m' : Machine}

theorem sameLevel_lax : (Ways.lasting Machine.SameLevel).Lax Machine.SameLevelDeliveries :=
  Ways.lasting_lax Machine.SameLevelDeliveries.level

theorem modifyWorld_sameLevel (g : World → World) : Keeps Machine.SameLevel (modifyWorld g) :=
  fun _ _ => rfl

theorem setInitState_sameLevel (id : Nat) (i : InitState) :
    Goes (.lasting Machine.SameLevel) (setInitState id i) :=
  .bind (.own sameLevel_lax (initState_keeps id)) fun _ =>
    .bind (modifyWorld_sameLevel _).lasts fun _ => (modifyWorld_sameLevel _).lasts

theorem useClass_sameLevel (id : Nat) : Goes (.lasting Machine.SameLevel) (useClass id) :=
  .bind (.own sameLevel_lax thread_keeps) fun _ =>
    .bind (.own sameLevel_lax (initState_keeps id)) fun _ => (modifyWorld_sameLevel _).lasts

theorem uses_sameLevel (hn : host.natives.Abide Machine.SameLevelDeliveries host.toReentry)
    (hr : host.toReentry.Goes (.lasting Machine.SameLevel)) :
    UsesGo (.lasting Machine.SameLevel) host :=
  .of_initialises sameLevel_lax (invoke_goes sameLevel_lax hn hr)
    (ensureInitialisedWithin_goes sameLevel_lax hr setInitState_sameLevel
      fun _ _ => (modifyWorld_sameLevel _).lasts)
    useClass_sameLevel (.own sameLevel_lax) (.own sameLevel_lax)

/-- A run is counted while it is in progress and no longer. -/
theorem runLoop_sameLevel {n : Nat}
    (looping : ∀ level, Goes (.lasting Machine.SameLevel) (loop host level n)) :
    Goes (.lasting Machine.SameLevel) (runLoop host n) := by
  refine .of_lasting (fun {s m o m'} ran => ?_) fun {s m e m'} ran => ?_
  · obtain ⟨mid, looped, rfl⟩ := runLoop_ok ran
    have same : mid.thread.level = m.thread.level + 1 := (looping _).lasts_ok looped
    exact Nat.sub_eq_of_eq_add same
  · obtain ⟨mid, looped, ⟨-, rfl⟩ | ⟨other, -⟩⟩ := runLoop_error ran
    · have same : mid.thread.level = m.thread.level + 1 := (looping _).lasts_fault looped
      exact Nat.sub_eq_of_eq_add same
    · exact absurd rfl (other e)

end Exec

theorem Engine.sameLevel {natives : Natives}
    (hn : ∀ n, natives.Abide Machine.SameLevelDeliveries (reentry natives n)) (n : Nat) :
    (reentry natives n).Goes (.lasting Machine.SameLevel) :=
  Engine.goes Exec.sameLevel_lax hn (fun k ih => Exec.uses_sameLevel (hn k) ih)
    (fun _ => (Exec.modifyWorld_sameLevel _).lasts) (fun _ _ => Exec.runLoop_sameLevel) n

/-- Any ways at all. -/
def Ways.any : Ways := ⟨fun _ _ _ => True, fun _ _ _ _ => True⟩

/-- No exception is pending. -/
def Machine.Clear (m : Machine) : Prop := m.thread.pending = none

/-! ## What an outcome says -/

/-- What is pending when a run is over, by its outcome.  It matters whether the run was nested, and
of a run that is halted whether nothing was pending at its beginning. -/
def RunOutcome.Leaves (nested clear : Prop) (pending : Option Handle) : RunOutcome → Prop
  | .completed => pending = none
  | .halted => clear → pending = none
  | .exceptionPending e => nested ∧ pending = some e
  | .uncaught _ => ¬nested ∧ pending = none

/-- What is pending when a call is over, by what it came to. -/
def Invocation.Leaves (nested clear : Prop) (pending : Option Handle) : Invocation → Prop
  | .returned _ => pending = none
  | .threw e => nested ∧ pending = some e ∨ ¬nested ∧ pending = none
  | .halted => clear → pending = none

/-- Calls and runs leave pending what they say. -/
structure Reentry.Truthful (r : Reentry) : Prop where
  /-- Calls do. -/
  call : ∀ cls decl args s m i m', r.call cls decl args s m = .ok i m' →
    i.Leaves (m.thread.level ≠ 0) (m.thread.pending = none) m'.thread.pending
  /-- Runs do. -/
  run : ∀ s m o m', r.run s m = .ok o m' →
    o.Leaves (m.thread.level ≠ 0) (m.thread.pending = none) m'.thread.pending

namespace Exec

variable {host : Host} {level : Nat} {s : Settings} {m m' : Machine} {cls : LoadedClass}
  {decl : MethodDecl} {o : RunOutcome}

/-- A call concludes by its outcome. -/
theorem conclude_leaves {nested clear : Prop} {base : Nat} {i : Invocation}
    (leaves : o.Leaves nested clear m.thread.pending)
    (h : conclude decl base o s m = .ok i m') : i.Leaves nested clear m'.thread.pending := by
  have samePending : m.SamePending m' := (conclude_keeps decl base o).of_ok h
  rw [samePending]
  cases conclude_cases h with
  | void _ => exact leaves
  | value _ _ => exact leaves
  | halted => exact leaves
  | threw outcome _ =>
      obtain rfl | rfl := outcome
      · exact .inl leaves
      · exact .inr leaves

/-! ## Deliveries -/

theorem Along.clear {α : Type} {x : Exec α} (hx : Keeps Machine.SamePending x) :
    Along .any Machine.Clear x fun _ => Machine.Clear :=
  .of_keeps hx (fun _ _ _ _ => trivial) (fun _ _ _ _ _ => trivial)
    fun _ _ _ _ clear h => (hx.of_ok h).trans clear

theorem takePending_clears {P : Machine → Prop} :
    Along .any P takePending fun _ => Machine.Clear :=
  .of_keeps (R := Machine.SameStacks) takePending_keeps (fun _ _ _ _ => trivial)
    (fun _ _ _ _ _ => trivial) fun _ _ _ _ _ h => by cases h; rfl

/-- What the method of the group throws is taken off, and a method that is halted was called while
nothing was pending. -/
theorem callGroup_clears (truthful : host.toReentry.Truthful) (exception : Handle)
    (group : Option (LoadedClass × MethodDecl × List Value)) :
    Along .any Machine.Clear (callGroup host exception group) fun _ => Machine.Clear := by
  cases group with
  | none => exact .clear (.pure ())
  | some group =>
      obtain ⟨cls, decl, args⟩ := group
      have calling : Along .any Machine.Clear (host.call cls decl args) fun i m' =>
          (∀ e, i ≠ .threw e) → m'.Clear := by
        refine fun s m clear => ⟨fun i m' called => ⟨.single trivial, fun quiet => ?_⟩,
          fun _ _ _ => ⟨m, .refl, trivial⟩⟩
        have leaves := truthful.call _ _ _ _ _ _ _ called
        cases i with
        | returned v => exact leaves
        | halted => exact leaves clear
        | threw e => exact absurd rfl (quiet e)
      refine (Along.clear (record_sameThreadMonitors _).sameThread.samePending).bind
        fun _ => calling.bind fun i => ?_
      cases i with
      | returned v => exact .pure () fun _ clear => clear (by simp)
      | halted => exact .pure () fun _ clear => clear (by simp)
      | threw second =>
          refine takePending_clears.bind fun _ => (Along.clear heap_keeps).bind fun h => ?_
          exact (Along.clear (.ofExcept _)).bind fun _ => .clear (report_keeps _)

/-- Delivering an exception leaves nothing pending. -/
theorem deliverUncaught_clears (truthful : host.toReentry.Truthful) (exception : Handle) :
    Along .any (fun _ => True) (deliverUncaught host exception) fun _ => Machine.Clear := by
  rw [deliverUncaught_eq]
  refine takePending_clears.bind fun _ => (Along.clear (seekGroup_keeps _)).bind fun group => ?_
  exact (callGroup_clears truthful exception group).bind fun _ => .clear (.pure _)

/-! ## Runs -/

/-- An exception that leaves a run is delivered by the outermost one and left pending by others. -/
theorem Unwound.leaves (truthful : host.toReentry.Truthful) {e : Handle} {name : String}
    {clear : Prop} (h : Unwound host e name level s m (some o) m')
    (pending : m.thread.pending = some e) : o.Leaves (level ≠ 1) clear m'.thread.pending := by
  generalize answer : some o = ended at h
  induction h with
  | caught => cases answer
  | ended _ _ nested =>
      cases answer
      exact ⟨nested, pending⟩
  | delivered _ _ outermost delivered =>
      cases answer
      have clears := ((deliverUncaught_clears truthful e).of_ok trivial delivered).2
      rw [deliverUncaught_ok delivered]
      exact ⟨not_not_intro outermost, clears⟩
  | left _ _ _ ih => exact ih pending answer

theorem turn_leaves (truthful : host.toReentry.Truthful)
    (h : turn host level s m = .ok (some o) m') :
    o.Leaves (level ≠ 1) (m.thread.pending = none) m'.thread.pending := by
  generalize answer : some o = ended at h
  cases turn_ok h with
  | halted sameThread _ =>
      cases answer
      intro clear
      rw [sameThread.thread]
      exact clear
  | @settled _ _ flow _ _ pending =>
      cases flow with
      | next => cases answer
      | leave =>
          cases answer
          exact pending
  | handled _ _ pending handled =>
      subst answer
      obtain ⟨name, unwound⟩ := handleException_ok handled
      exact unwound.leaves truthful pending

/-- Nothing is pending in front of a turn, except in front of the first one. -/
theorem loop_leaves (truthful : host.toReentry.Truthful) {n : Nat}
    (h : loop host level n s m = .ok o m') :
    o.Leaves (level ≠ 1) (m.thread.pending = none) m'.thread.pending := by
  obtain ⟨last, rounds, final⟩ := loop_ok h
  have leaves := turn_leaves truthful final
  cases rounds with
  | refl => exact leaves
  | tail _ round =>
      cases o with
      | completed => exact leaves
      | halted => exact fun _ => leaves round.pending_eq_none
      | exceptionPending e => exact leaves
      | uncaught e => exact leaves

theorem runLoop_leaves (truthful : host.toReentry.Truthful) {n : Nat}
    (h : runLoop host n s m = .ok o m') :
    o.Leaves (m.thread.level ≠ 0) (m.thread.pending = none) m'.thread.pending := by
  obtain ⟨mid, looped, rfl⟩ := runLoop_ok h
  have nested : (m.thread.level + 1 ≠ 1) = (m.thread.level ≠ 0) := by simp
  have leaves := loop_leaves truthful looped
  rw [nested] at leaves
  exact leaves

/-! ## Calls -/

/-- A method that is invoked in a frame is neither abstract nor native, so that nothing was run. -/
theorem invoke_framed (h : invoke host cls decl s m = .ok true m') :
    m.Core m' ∧ m.SamePending m' := by
  cases invoke_cases h with
  | @entered mid _ monitor locked _ framed =>
      have sameThread : m.SameThread mid := (callMonitor_keeps cls decl).of_ok locked
      have first : m.Core mid := (callMonitor_keeps cls decl).of_ok locked
      have samePending : mid.SamePending m' :=
        (enterFrame_samePending cls decl monitor).of_ok framed
      exact ⟨IsTrans.trans _ _ _ first ((enterFrame_core cls decl monitor).of_ok framed),
        samePending.trans (congrArg Thread.pending sameThread.thread)⟩

end Exec

namespace Sample

/-- The exception that ends a call, with what is pending and what was delivered then. -/
def thrown (x : Exec Invocation) (m : Machine) : Option (Handle × Option Handle × List Handle) :=
  match x {} m with
  | .ok (.threw e) m' => some (e, m'.thread.pending, m'.world.deliveries)
  | _ => none

theorem thrown_eq_some {x : Exec Invocation} {m : Machine} {e : Handle} {pending : Option Handle}
    {deliveries : List Handle} (h : thrown x m = some (e, pending, deliveries)) :
    ∃ m', x {} m = .ok (.threw e) m' ∧ m'.thread.pending = pending ∧
      m'.world.deliveries = deliveries := by
  unfold thrown at h
  split at h
  next e' m' run =>
    cases h
    exact ⟨m', run, rfl, rfl⟩
  next => cases h

/-- The thread is inside a call, with so many runs in progress. -/
def nested (level : Nat) : Machine :=
  { grouped with thread := { grouped.thread with depths := [0], level } }

end Sample

namespace Engine

open Exec

variable {natives : Natives}

/-- A call that comes to a result leaves pending what the result says.  The level decides whether
it is nested, and it is the one of the caller again where the method was invoked without a frame. -/
theorem execute_leaves {n : Nat}
    (hn : ∀ n, natives.Abide Machine.SameLevelDeliveries (reentry natives n))
    (truthful : (reentry natives n).Truthful) {cls : LoadedClass} {decl : MethodDecl}
    {args : List Value} {s : Settings} {m m' : Machine} {i : Invocation}
    (h : execute (host natives n) cls decl args s m = .ok i m') :
    i.Leaves (m.thread.level ≠ 0) (m.thread.pending = none) m'.thread.pending := by
  obtain ⟨-, events, o, ran, d, outer, ended, -, concluded⟩ := execute_ok h
  refine conclude_leaves ?_ concluded
  have frameless {mid : Machine} (invoked : invoke (host natives n) cls decl s
      (m.prepared args events) = .ok false mid) : mid.thread.level = m.thread.level := by
    have going : Goes (.lasting Machine.SameLevel) (invoke (host natives n) cls decl) :=
      invoke_goes sameLevel_lax (hn n) (sameLevel hn n) cls decl
    have same : (m.prepared args events).SameLevel mid := going.lasts_ok invoked
    exact same
  cases ended with
  | @run mid _ _ entered ran =>
      obtain ⟨core, samePending⟩ := invoke_framed entered
      have level : mid.thread.level = m.thread.level := core.level
      have pending : mid.thread.pending = m.thread.pending := samePending
      have leaves := truthful.run s mid o _ ran
      rw [level, pending] at leaves
      exact leaves
  | done _ clear => exact clear
  | threw invoked pending nested =>
      rw [frameless invoked] at nested
      exact ⟨nested, pending⟩
  | uncaught invoked _ outermost delivered =>
      rw [frameless invoked] at outermost
      have clear := ((deliverUncaught_clears truthful _).of_ok trivial delivered).2
      rw [deliverUncaught_ok delivered]
      exact ⟨not_not_intro outermost, clear⟩

theorem truthful (hn : ∀ n, natives.Abide Machine.SameLevelDeliveries (reentry natives n)) :
    ∀ n, (reentry natives n).Truthful
  | 0 => by
      constructor
      · intro cls decl args s m i m' h
        rw [reentry_call_zero] at h
        cases h
      · intro s m o m' h
        rw [reentry_run_zero] at h
        cases h
  | n + 1 => by
      have ih := truthful hn n
      constructor
      · intro cls decl args s m i m' h
        rw [reentry_call_succ] at h
        exact execute_leaves hn ih h
      · intro s m o m' h
        rw [reentry_run_succ] at h
        exact runLoop_leaves ih h

/-- What a call comes to agrees with what is pending when it is over.

A call that returns leaves nothing pending.  An exception that ends a call inside another one is
pending afterwards, and nothing was delivered, if the level shows the other call.  An exception that
ends a call outside all others is not pending afterwards. -/
theorem call_pending_agrees
    (hn : ∀ n, natives.Abide Machine.SameLevelDeliveries (reentry natives n)) (n : Nat)
    (cls : LoadedClass) (decl : MethodDecl) (args : List Value) (s : Settings) (m : Machine)
    {i : Invocation} {m' : Machine} (h : call natives n cls decl args s m = .ok i m') :
    (∀ v, i = .returned v → m'.thread.pending = none) ∧
    (∀ e, i = .threw e → m.thread.depths ≠ [] → m.thread.level ≠ 0 →
      m'.thread.pending = some e ∧ m'.world.deliveries = m.world.deliveries) ∧
    (∀ e, i = .threw e → m.thread.depths = [] → m.thread.level = 0 →
      m'.thread.pending = none) := by
  have leaves := (truthful hn n).call cls decl args s m i m' h
  refine ⟨?_, ?_, ?_⟩
  · rintro v rfl
    exact leaves
  · rintro e rfl - nested
    rcases leaves with ⟨-, pending⟩ | ⟨outermost, -⟩
    · have mute : m.Mute m' := ((mute hn n).call cls decl args).keeps.of_ok h
      exact ⟨pending, (mute (Nat.pos_of_ne_zero nested)).2⟩
    · exact absurd nested outermost
  · rintro e rfl - outermost
    rcases leaves with ⟨nested, -⟩ | ⟨-, clear⟩
    · exact absurd outermost nested
    · exact clear

/-- An exception ends a call inside a run and is pending then. -/
theorem call_pending_agrees_nested : ∃ m',
    call coreNatives 5 Sample.group Sample.rethrowing [.object ⟨0⟩, .object ⟨1⟩, .object ⟨0⟩] {}
      (Sample.nested 1) = .ok (.threw ⟨0⟩) m' ∧
    m'.thread.pending = some ⟨0⟩ ∧ m'.world.deliveries = [] := by
  have ended : Sample.thrown (call coreNatives 5 Sample.group Sample.rethrowing
      [.object ⟨0⟩, .object ⟨1⟩, .object ⟨0⟩]) (Sample.nested 1) =
        some (⟨0⟩, some ⟨0⟩, []) := by decide +kernel
  obtain ⟨m', run, -⟩ := Sample.thrown_eq_some ended
  obtain ⟨-, nested, -⟩ := call_pending_agrees (fun n => coreNatives_abide _) 5 Sample.group
    Sample.rethrowing _ {} (Sample.nested 1) run
  obtain ⟨pending, deliveries⟩ := nested _ rfl (by simp [Sample.nested]) (by simp [Sample.nested])
  exact ⟨m', run, pending, deliveries⟩

/-- Inside a call of a native that no run is around, the exception is delivered and not pending. -/
theorem call_pending_disagrees :
    (Sample.nested 0).thread.depths ≠ [] ∧
    ∃ m', call coreNatives 7 Sample.group Sample.rethrowing
        [.object ⟨0⟩, .object ⟨1⟩, .object ⟨0⟩] {} (Sample.nested 0) =
          .ok (.threw ⟨0⟩) m' ∧
      m'.thread.pending = none ∧ m'.world.deliveries = [⟨0⟩] := by
  refine ⟨by simp [Sample.nested], ?_⟩
  have ended : Sample.thrown (call coreNatives 7 Sample.group Sample.rethrowing
      [.object ⟨0⟩, .object ⟨1⟩, .object ⟨0⟩]) (Sample.nested 0) =
        some (⟨0⟩, none, [⟨0⟩]) := by decide +kernel
  obtain ⟨m', run, pending, deliveries⟩ := Sample.thrown_eq_some ended
  exact ⟨m', run, pending, deliveries⟩

end Engine

end JavaMachine
