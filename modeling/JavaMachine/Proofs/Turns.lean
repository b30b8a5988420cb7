import JavaMachine.Proofs.Moves
import JavaMachine.Proofs.Unwinding

/-!
# Turns, runs and calls taken apart

A run is a sequence of turns, and a call from outside is a run with its preparation and its
conclusion.  This module takes each of them apart once, so that what holds of a run is proved turn
by turn: `Turned` lists what a turn that has an answer consists of, `loop_ok` and `loop_error` turn
a loop into the turns that it has taken, and `execute_ok` and `execute_error` do the same for a
call.  `Concluded` lists the ways in which a call that is over answers.
-/

namespace JavaMachine

namespace Machine

/-- A machine with another number of runs in progress. -/
def atLevel (m : Machine) (level : Nat) : Machine := { m with thread := { m.thread with level } }

/-- A machine with other depth counters. -/
def withDepths (m : Machine) (depths : List Nat) : Machine :=
  { m with thread := { m.thread with depths } }

/-- A machine that is ready for a call: its arguments are pushed and a counter is opened. -/
def prepared (m : Machine) (args : List Value) (events : Array Event) : Machine where
  world := { m.world with events }
  thread := { m.thread with
    operands := m.thread.operands ++ (args.map fun v => (⟨v, m.tag⟩ : Operand)).toArray
    depths := 0 :: m.thread.depths
    leaks := m.thread.leaks + args.countP Value.isReturnAddress }

end Machine

namespace Exec

open Relation (ReflTransGen)

variable {host : Host} {level : Nat} {s : Settings} {m m' : Machine}

/-! ## Turns -/

/-- What comes in front of an instruction leaves the stacks and the pending exception alone. -/
structure Begins (m m' : Machine) : Prop where
  /-- The stacks are the same. -/
  sameStacks : m.SameStacks m'
  /-- The pending exception is the same. -/
  samePending : m.SamePending m'

/-- What comes in front of an instruction stays within the current frame, too. -/
structure Begun (m m' : Machine) : Prop extends Begins m m' where
  /-- It stays within the current frame. -/
  within : m.WithinSameMonitors m'

/-- What a turn that has an answer consists of. -/
inductive Turned (host : Host) (level : Nat) (s : Settings) (m : Machine) :
    Option RunOutcome → Machine → Prop
  /-- The run is halted in front of the instruction. -/
  | halted {m' : Machine} : m.SameThread m' → m'.world.halted = true →
      Turned host level s m (some .halted) m'
  /-- The instruction leaves no exception pending. -/
  | settled {b m' : Machine} {flow : Flow} : Begun m b → step host s b = .ok flow m' →
      m'.thread.pending = none →
      Turned host level s m (if flow = .leave then some .completed else none) m'
  /-- The instruction leaves an exception pending, which is handled. -/
  | handled {b c m' : Machine} {flow : Flow} {e : Handle} {o : Option RunOutcome} : Begun m b →
      step host s b = .ok flow c → c.thread.pending = some e →
      handleException host e level s c = .ok o m' → Turned host level s m o m'

/-- A thread that was not paused has not moved. -/
theorem checkpoint_unpaused (h : checkpoint s m = .ok false m') : m' = m := by
  rw [checkpoint, bind_of_ok thread_run] at h
  obtain ⟨token, mid, looked, h⟩ := bind_eq_ok h
  cases confirmed : token.phase.confirm? with
  | none =>
      simp only [confirmed] at h
      cases h
      cases looked
      rfl
  | some held =>
      simp only [confirmed] at h
      have ending {a b : Machine} : (do
          if (← pauseToken m.thread.token).phase = held then report .haltedWhilePaused
          else report .threadResumed
          return true : Exec Bool) s a ≠ .ok false b := by
        intro h
        obtain ⟨_, _, -, h⟩ := bind_eq_ok h
        split at h
        · obtain ⟨_, _, -, ⟨⟩⟩ := bind_eq_ok h
        · obtain ⟨_, _, -, ⟨⟩⟩ := bind_eq_ok h
      obtain ⟨_, _, -, h⟩ := bind_eq_ok h
      obtain ⟨_, _, -, h⟩ := bind_eq_ok h
      obtain ⟨halted, _, -, h⟩ := bind_eq_ok h
      split at h
      · exact absurd h ending
      · split at h
        · obtain ⟨_, _, ⟨⟩, -⟩ := bind_eq_ok h
        · obtain ⟨_, _, -, h⟩ := bind_eq_ok h
          exact absurd h ending

theorem stopsHere_true (h : stopsHere s m = .ok true m') : m'.world.halted = true := by
  rw [stopsHere, bind_of_ok isHalted_run] at h
  split at h
  next halted =>
    cases h
    exact halted
  next =>
    obtain ⟨paused, mid, _, h⟩ := bind_eq_ok h
    cases paused with
    | false => cases h
    | true =>
        have last : isHalted s mid = .ok true m' := h
        rw [isHalted_run] at last
        injection last with halted same
        rw [← same]
        exact halted

/-- A run goes on with an instruction only in a machine that is not halted. -/
theorem stopsHere_false (h : stopsHere s m = .ok false m') : m'.world.halted = false := by
  rw [stopsHere, bind_of_ok isHalted_run] at h
  split at h
  next => cases h
  next unhalted =>
    obtain ⟨paused, mid, checked, h⟩ := bind_eq_ok h
    cases paused with
    | true =>
        have last : isHalted s mid = .ok false m' := h
        rw [isHalted_run] at last
        injection last with halted same
        rw [← same]
        exact halted
    | false =>
        cases h
        rw [checkpoint_unpaused checked]
        simpa using unhalted

theorem safepoint_begun {a b : Machine} (first : stopsHere s m = .ok false a)
    (second : safepoint s a = .ok () b) : Begun m b where
  sameStacks := IsTrans.trans _ _ _ (stopsHere_keeps.of_ok first)
    (after_of_ok second ▸ safepoint_after Machine.sameStacks_tick)
  samePending := IsTrans.trans _ _ _ (stopsHere_keeps.of_ok first)
    (after_of_ok second ▸ safepoint_after rfl)
  within := IsTrans.trans _ _ _ (stopsHere_keeps.of_ok first)
    (after_of_ok second ▸ safepoint_after (Machine.withinSameMonitors_tick (stopsHere_false first)))

/-- A run of a halted machine takes no instruction. -/
theorem turn_halted (halted : m.world.halted = true) :
    turn host level s m = .ok (some .halted) m := by
  have stops : stopsHere s m = .ok true m := by
    rw [stopsHere, bind_of_ok isHalted_run, if_pos halted]
    rfl
  rw [turn, bind_of_ok stops]
  rfl

theorem turn_ok {o : Option RunOutcome} (h : turn host level s m = .ok o m') :
    Turned host level s m o m' := by
  obtain ⟨stops, a, first, h⟩ := bind_eq_ok h
  cases stops with
  | true =>
      cases h
      exact .halted (stopsHere_keeps.of_ok first) (stopsHere_true first)
  | false =>
      obtain ⟨_, b, second, h⟩ := bind_eq_ok h
      have begins := safepoint_begun first second
      obtain ⟨flow, c, third, h⟩ := bind_eq_ok h
      rw [bind_of_ok thread_run] at h
      cases pending : c.thread.pending with
      | none =>
          rw [pending] at h
          cases h
          exact .settled begins third pending
      | some e =>
          rw [pending] at h
          exact .handled begins third pending h

/-- How a turn stops: in front of the instruction, in it, or while an exception that it left pending
is handled. -/
inductive TurnStop (host : Host) (level : Nat) (s : Settings) (m : Machine) (stop : Stop)
    (m' : Machine) : Prop
  | before : m.SameStacks m' → TurnStop host level s m stop m'
  | inside {b : Machine} : Begun m b → step host s b = .error stop m' →
      TurnStop host level s m stop m'
  | handling {b c : Machine} {flow : Flow} {e : Handle} : Begun m b → step host s b = .ok flow c →
      c.thread.pending = some e → handleException host e level s c = .error stop m' →
      TurnStop host level s m stop m'

theorem turn_error {stop : Stop} (h : turn host level s m = .error stop m') :
    TurnStop host level s m stop m' := by
  obtain failed | ⟨stops, a, first, h⟩ := bind_eq_error h
  · exact .before (stopsHere_keeps.of_error failed)
  · cases stops with
    | true => cases h
    | false =>
        obtain failed | ⟨_, b, second, h⟩ := bind_eq_error h
        · exact .before (IsTrans.trans _ _ _ (stopsHere_keeps.of_ok first)
            (after_of_error failed ▸ safepoint_after Machine.sameStacks_tick))
        · have begins := safepoint_begun first second
          obtain failed | ⟨flow, c, third, h⟩ := bind_eq_error h
          · exact .inside begins failed
          · rw [bind_of_ok thread_run] at h
            cases pending : c.thread.pending with
            | none => rw [pending] at h; cases h
            | some e =>
                rw [pending] at h
                exact .handling begins third pending h

/-! ## Runs -/

/-- One turn after which a run goes on. -/
def Round (host : Host) (level : Nat) (s : Settings) (m m' : Machine) : Prop :=
  turn host level s m = .ok none m'

/-- A loop with an outcome has taken turns, the last of which has the outcome. -/
theorem loop_ok {n : Nat} {o : RunOutcome} (h : loop host level n s m = .ok o m') :
    ∃ last, ReflTransGen (Round host level s) m last ∧ turn host level s last = .ok (some o) m' := by
  induction n generalizing m with
  | zero => cases h
  | succ n ih =>
      obtain ⟨answer, mid, first, h⟩ := bind_eq_ok h
      cases answer with
      | some outcome =>
          cases h
          exact ⟨m, .refl, first⟩
      | none =>
          obtain ⟨last, rounds, final⟩ := ih h
          exact ⟨last, .head first rounds, final⟩

/-- A loop that stops has taken turns, and the last one stops or is one too many. -/
theorem loop_error {n : Nat} {stop : Stop} (h : loop host level n s m = .error stop m') :
    ∃ last, ReflTransGen (Round host level s) m last ∧
      (turn host level s last = .error stop m' ∨ stop = .exhausted ∧ m' = last) := by
  induction n generalizing m with
  | zero =>
      cases h
      exact ⟨_, .refl, .inr ⟨rfl, rfl⟩⟩
  | succ n ih =>
      obtain failed | ⟨answer, mid, first, h⟩ := bind_eq_error h
      · exact ⟨m, .refl, .inl failed⟩
      · cases answer with
        | some outcome => cases h
        | none =>
            obtain ⟨last, rounds, final⟩ := ih h
            exact ⟨last, .head first rounds, final⟩

theorem runLoop_run (n : Nat) : runLoop host n s m = (do
    let outcome ← attempt (loop host (m.thread.level + 1) n)
    modifyThread fun t => { t with level := t.level - 1 }
    ofExcept outcome : Exec RunOutcome) s (m.atLevel (m.thread.level + 1)) := rfl

theorem runLoop_ok {n : Nat} {o : RunOutcome} (h : runLoop host n s m = .ok o m') :
    ∃ mid, loop host (m.thread.level + 1) n s (m.atLevel (m.thread.level + 1)) = .ok o mid ∧
      m' = mid.atLevel (mid.thread.level - 1) := by
  rw [runLoop_run] at h
  obtain ⟨result, mid, ran, h⟩ := bind_eq_ok h
  rw [bind_of_ok (modifyThread_run _)] at h
  cases result with
  | error e => cases h
  | ok o' =>
      cases h
      exact ⟨mid, attempt_eq_ok ran, rfl⟩

/-- A run that stops in a fault is no longer counted among the runs in progress. -/
theorem runLoop_error {n : Nat} {stop : Stop} (h : runLoop host n s m = .error stop m') :
    ∃ mid, loop host (m.thread.level + 1) n s (m.atLevel (m.thread.level + 1)) = .error stop mid ∧
      ((∃ e, stop = .fault e) ∧ m' = mid.atLevel (mid.thread.level - 1) ∨
        (∀ e, stop ≠ .fault e) ∧ m' = mid) := by
  rw [runLoop_run] at h
  cases looped : loop host (m.thread.level + 1) n s (m.atLevel (m.thread.level + 1)) with
  | ok o mid =>
      rw [bind_of_ok (attempt_of_ok looped), bind_of_ok (modifyThread_run _)] at h
      cases h
  | error stop' mid =>
      cases stop' with
      | fault e =>
          rw [bind_of_ok (attempt_of_fault looped), bind_of_ok (modifyThread_run _)] at h
          cases h
          exact ⟨mid, rfl, .inl ⟨⟨e, rfl⟩, rfl⟩⟩
      | blocked =>
          rw [bind_of_error (attempt_of_stop looped (by simp))] at h
          cases h
          exact ⟨_, rfl, .inr ⟨by simp, rfl⟩⟩
      | exhausted =>
          rw [bind_of_error (attempt_of_stop looped (by simp))] at h
          cases h
          exact ⟨_, rfl, .inr ⟨by simp, rfl⟩⟩

/-! ## Calls from outside -/

/-- The arguments of a call lie above what was there, and those that are return addresses are
counted. -/
theorem handAll_run (args : List Value) : (args.forM hand : Exec PUnit) s m =
    .ok () { m with thread := { m.thread with
      operands := m.thread.operands ++ (args.map fun v => (⟨v, m.tag⟩ : Operand)).toArray
      leaks := m.thread.leaks + args.countP Value.isReturnAddress } } := by
  induction args generalizing m with
  | nil => simp
  | cons v args ih =>
      have first : hand v s m = .ok () { m with thread := m.thread.hand v } := rfl
      have run : ((v :: args).forM hand : Exec PUnit) = hand v >>= fun _ => args.forM hand := rfl
      rw [run, bind_of_ok first, ih]
      simp [Thread.hand, Thread.push, Thread.pushOperand, Machine.tag, Thread.instructionPc,
        List.countP_cons]
      omega

theorem prepare_run (decl : MethodDecl) (args : List Value) :
    ∃ events, prepare decl args s m = .ok () (m.prepared args events) := by
  obtain ⟨events, reported⟩ := report_run (s := s) (m := m)
    (.executeMethod decl.signature m.thread.level)
  refine ⟨events, ?_⟩
  rw [prepare, bind_of_ok thread_run, bind_of_ok reported, bind_of_ok (handAll_run args)]
  rfl

/-- How a call whose arguments are on the stack comes to its outcome. -/
inductive Ran (host : Host) (cls : LoadedClass) (decl : MethodDecl) (s : Settings) (m : Machine) :
    RunOutcome → Machine → Prop
  /-- A frame was entered and run. -/
  | run {mid m' : Machine} {o : RunOutcome} : invoke host cls decl s m = .ok true mid →
      host.run s mid = .ok o m' → Ran host cls decl s m o m'
  /-- The call is over without a frame, and no exception is pending. -/
  | done {m' : Machine} : invoke host cls decl s m = .ok false m' → m'.thread.pending = none →
      Ran host cls decl s m .completed m'
  /-- The call is over without a frame, and an exception is pending inside another run. -/
  | threw {m' : Machine} {e : Handle} : invoke host cls decl s m = .ok false m' →
      m'.thread.pending = some e → m'.thread.level ≠ 0 →
      Ran host cls decl s m (.exceptionPending e) m'
  /-- The call is over without a frame, and an exception is pending outside all runs. -/
  | uncaught {mid m' : Machine} {e : Handle} {o : RunOutcome} :
      invoke host cls decl s m = .ok false mid → mid.thread.pending = some e →
      mid.thread.level = 0 → deliverUncaught host e s mid = .ok o m' → Ran host cls decl s m o m'

theorem invokeAndRun_ok {cls : LoadedClass} {decl : MethodDecl} {o : RunOutcome}
    (h : invokeAndRun host cls decl s m = .ok o m') : Ran host cls decl s m o m' := by
  obtain ⟨entered, mid, invoked, h⟩ := bind_eq_ok h
  cases entered with
  | true => exact .run invoked h
  | false =>
      simp only [Bool.false_eq_true, if_false] at h
      rw [bind_of_ok thread_run] at h
      cases pending : mid.thread.pending with
      | none =>
          rw [pending] at h
          cases h
          exact .done invoked pending
      | some e =>
          rw [pending] at h
          simp only at h
          split at h
          next outermost => exact .uncaught invoked pending outermost h
          next nested =>
            cases h
            exact .threw invoked pending nested

/-- How a call whose arguments are on the stack stops. -/
inductive RanStop (host : Host) (cls : LoadedClass) (decl : MethodDecl) (s : Settings) (m : Machine)
    (stop : Stop) (m' : Machine) : Prop
  | invoking : invoke host cls decl s m = .error stop m' → RanStop host cls decl s m stop m'
  | running {mid : Machine} : invoke host cls decl s m = .ok true mid →
      host.run s mid = .error stop m' → RanStop host cls decl s m stop m'
  | delivering {mid : Machine} {e : Handle} : invoke host cls decl s m = .ok false mid →
      deliverUncaught host e s mid = .error stop m' → RanStop host cls decl s m stop m'

theorem invokeAndRun_error {cls : LoadedClass} {decl : MethodDecl} {stop : Stop}
    (h : invokeAndRun host cls decl s m = .error stop m') : RanStop host cls decl s m stop m' := by
  obtain failed | ⟨entered, mid, invoked, h⟩ := bind_eq_error h
  · exact .invoking failed
  · cases entered with
    | true => exact .running invoked h
    | false =>
        simp only [Bool.false_eq_true, if_false] at h
        rw [bind_of_ok thread_run] at h
        cases pending : mid.thread.pending with
        | none => rw [pending] at h; cases h
        | some e =>
            rw [pending] at h
            simp only at h
            split at h
            · exact .delivering invoked h
            · cases h

theorem closeDepth_cons {d : Nat} {outer : List Nat} (h : m.thread.depths = d :: outer) :
    (discard (onThread Thread.closeDepth) : Exec PUnit) s m = .ok () (m.withDepths outer) := by
  have closed : m.thread.closeDepth = .ok (d, { m.thread with depths := outer }) := by
    rw [Thread.closeDepth, h]
  exact discard_of_ok (onThread_of_ok closed)

theorem closeDepth_nil (h : m.thread.depths = []) :
    (discard (onThread Thread.closeDepth) : Exec PUnit) s m =
      .error (.fault .depthStackEmpty) m := by
  refine discard_of_error (onThread_of_error ?_)
  rw [Thread.closeDepth, h]

/-- A call whose run is over is concluded. -/
theorem execute_of_ran {cls : LoadedClass} {decl : MethodDecl} {args : List Value} {o : RunOutcome}
    {ran : Machine} {d : Nat} {outer : List Nat} (count : args.length = decl.argCount)
    (h : invokeAndRun host cls decl s ((prepare decl args).after s m) = .ok o ran)
    (depths : ran.thread.depths = d :: outer) :
    execute host cls decl args s m =
      conclude decl m.thread.operandDepth o s (ran.withDepths outer) := by
  obtain ⟨events, prepared⟩ := prepare_run (s := s) (m := m) decl args
  rw [after_of_ok prepared] at h
  rw [execute, if_neg (not_not.mpr count)]
  beta_reduce
  rw [bind_of_ok thread_run, bind_of_ok prepared, bind_of_ok (attempt_of_ok h),
    bind_of_ok (closeDepth_cons depths)]
  rfl

/-- A call that has a result was prepared, run and concluded. -/
theorem execute_ran {cls : LoadedClass} {decl : MethodDecl} {args : List Value} {i : Invocation}
    (h : execute host cls decl args s m = .ok i m') :
    args.length = decl.argCount ∧ ∃ outcome ran d outer,
      invokeAndRun host cls decl s ((prepare decl args).after s m) = .ok outcome ran ∧
      ran.thread.depths = d :: outer ∧
      conclude decl m.thread.operandDepth outcome s (ran.withDepths outer) = .ok i m' := by
  unfold execute at h
  split at h
  · obtain ⟨_, _, failed, _⟩ := bind_eq_ok h
    cases failed
  next count =>
    refine ⟨Decidable.not_not.mp count, ?_⟩
    obtain ⟨events, prepared⟩ := prepare_run (s := s) (m := m) decl args
    rw [after_of_ok prepared]
    beta_reduce at h
    rw [bind_of_ok thread_run, bind_of_ok prepared] at h
    obtain ⟨result, ran, attempted, h⟩ := bind_eq_ok h
    cases depths : ran.thread.depths with
    | nil => rw [bind_of_error (closeDepth_nil depths)] at h; cases h
    | cons d outer =>
        rw [bind_of_ok (closeDepth_cons depths)] at h
        cases result with
        | error e =>
            obtain ⟨_, _, failed, _⟩ := bind_eq_ok h
            cases failed
        | ok outcome =>
            have taken : (ofExcept (.ok outcome) : Exec RunOutcome) s (ran.withDepths outer) =
                .ok outcome (ran.withDepths outer) := rfl
            rw [bind_of_ok taken] at h
            exact ⟨outcome, ran, d, outer, attempt_eq_ok attempted, depths, h⟩

theorem execute_ok {cls : LoadedClass} {decl : MethodDecl} {args : List Value} {i : Invocation}
    (h : execute host cls decl args s m = .ok i m') :
    args.length = decl.argCount ∧ ∃ events outcome ran d outer,
      Ran host cls decl s (m.prepared args events) outcome ran ∧ ran.thread.depths = d :: outer ∧
      conclude decl m.thread.operandDepth outcome s (ran.withDepths outer) = .ok i m' := by
  obtain ⟨count, outcome, ran, d, outer, run, depths, concluded⟩ := execute_ran h
  obtain ⟨events, prepared⟩ := prepare_run (s := s) (m := m) decl args
  rw [after_of_ok prepared] at run
  exact ⟨count, events, outcome, ran, d, outer, invokeAndRun_ok run, depths, concluded⟩

/-- How a call stops. -/
inductive ExecuteStop (host : Host) (cls : LoadedClass) (decl : MethodDecl) (args : List Value)
    (s : Settings) (m : Machine) (stop : Stop) : Machine → Prop
  /-- The number of arguments is wrong. -/
  | refused : ExecuteStop host cls decl args s m stop m
  /-- The call stops, but not in a fault. -/
  | paused {m' : Machine} {events : Array Event} : args.length = decl.argCount →
      (∀ e, stop ≠ .fault e) → RanStop host cls decl s (m.prepared args events) stop m' →
      ExecuteStop host cls decl args s m stop m'
  /-- The call stops in a fault, and its counter is closed. -/
  | faulted {ran : Machine} {events : Array Event} {d : Nat} {outer : List Nat} :
      args.length = decl.argCount → (∃ e, stop = .fault e) →
      RanStop host cls decl s (m.prepared args events) stop ran → ran.thread.depths = d :: outer →
      ExecuteStop host cls decl args s m stop (ran.withDepths outer)
  /-- The call is over, but its conclusion stops. -/
  | concluding {m' ran : Machine} {events : Array Event} {outcome : RunOutcome} {d : Nat}
      {outer : List Nat} : args.length = decl.argCount →
      Ran host cls decl s (m.prepared args events) outcome ran → ran.thread.depths = d :: outer →
      conclude decl m.thread.operandDepth outcome s (ran.withDepths outer) = .error stop m' →
      ExecuteStop host cls decl args s m stop m'
  /-- There is no counter to close. -/
  | uncounted {ran : Machine} {events : Array Event} : args.length = decl.argCount →
      ((∃ outcome, Ran host cls decl s (m.prepared args events) outcome ran) ∨
        ∃ e, RanStop host cls decl s (m.prepared args events) (.fault e) ran) →
      ran.thread.depths = [] → ExecuteStop host cls decl args s m stop ran

theorem execute_error {cls : LoadedClass} {decl : MethodDecl} {args : List Value} {stop : Stop}
    (h : execute host cls decl args s m = .error stop m') :
    ExecuteStop host cls decl args s m stop m' := by
  unfold execute at h
  split at h
  · obtain failed | ⟨_, _, failed, _⟩ := bind_eq_error h
    · cases failed
      exact .refused
    · cases failed
  next count =>
    have count := Decidable.not_not.mp count
    obtain ⟨events, prepared⟩ := prepare_run (s := s) (m := m) decl args
    beta_reduce at h
    rw [bind_of_ok thread_run, bind_of_ok prepared] at h
    cases looped : invokeAndRun host cls decl s (m.prepared args events) with
    | ok o ran =>
        rw [bind_of_ok (attempt_of_ok looped)] at h
        cases depths : ran.thread.depths with
        | nil =>
            rw [bind_of_error (closeDepth_nil depths)] at h
            cases h
            exact .uncounted count (.inl ⟨o, invokeAndRun_ok looped⟩) depths
        | cons d outer =>
            have taken : (ofExcept (.ok o) : Exec RunOutcome) s (ran.withDepths outer) =
                .ok o (ran.withDepths outer) := rfl
            rw [bind_of_ok (closeDepth_cons depths), bind_of_ok taken] at h
            exact .concluding count (invokeAndRun_ok looped) depths h
    | error stop' ran =>
        have stops := invokeAndRun_error looped
        cases stop' with
        | fault e =>
            rw [bind_of_ok (attempt_of_fault looped)] at h
            cases depths : ran.thread.depths with
            | nil =>
                rw [bind_of_error (closeDepth_nil depths)] at h
                cases h
                exact .uncounted count (.inr ⟨e, stops⟩) depths
            | cons d outer =>
                have failed : (ofExcept (.error e) : Exec RunOutcome) s (ran.withDepths outer) =
                    .error (.fault e) (ran.withDepths outer) := rfl
                rw [bind_of_ok (closeDepth_cons depths), bind_of_error failed] at h
                cases h
                exact .faulted count ⟨e, rfl⟩ stops depths
        | blocked =>
            rw [bind_of_error (attempt_of_stop looped (by simp))] at h
            cases h
            exact .paused count (by simp) stops
        | exhausted =>
            rw [bind_of_error (attempt_of_stop looped (by simp))] at h
            cases h
            exact .paused count (by simp) stops

/-- Concluding a call works on the operands and leaves the pending exception alone. -/
theorem conclude_keeps {R : Machine → Machine → Prop} [AllowsOperands R] (decl : MethodDecl)
    (base : Nat) (o : RunOutcome) : Keeps R (conclude decl base o) := by
  cases o with
  | completed =>
      simp only [conclude]
      split
      · exact .pure _
      · exact pop_keeps.bind fun _ => .pure _
  | halted => exact .pure _
  | exceptionPending e => exact (dropTo_keeps base).bind fun _ => .pure _
  | uncaught e => exact (dropTo_keeps base).bind fun _ => .pure _

/-- How a call is concluded. -/
inductive Concluded (decl : MethodDecl) (base : Nat) (s : Settings) (m : Machine) :
    RunOutcome → Invocation → Machine → Prop
  /-- A method without a result has returned. -/
  | void : decl.type.result = .void → Concluded decl base s m .completed (.returned none) m
  /-- The result of the method was popped. -/
  | value {v : Value} {m' : Machine} : decl.type.result ≠ .void → pop s m = .ok v m' →
      Concluded decl base s m .completed (.returned (some v)) m'
  /-- The machine is halted. -/
  | halted : Concluded decl base s m .halted .halted m
  /-- An exception has left the method, and what was on top of the operands was dropped. -/
  | threw {o : RunOutcome} {exception : Handle} {m' : Machine} :
      o = .exceptionPending exception ∨ o = .uncaught exception → dropTo base s m = .ok () m' →
      Concluded decl base s m o (.threw exception) m'

theorem conclude_cases {decl : MethodDecl} {base : Nat} {o : RunOutcome} {i : Invocation}
    (h : conclude decl base o s m = .ok i m') : Concluded decl base s m o i m' := by
  cases o with
  | completed =>
      simp only [conclude] at h
      split at h
      next void =>
        cases h
        exact .void void
      next value =>
        obtain ⟨v, mid, popped, h⟩ := bind_eq_ok h
        cases h
        exact .value value popped
  | halted =>
      cases h
      exact .halted
  | exceptionPending e =>
      obtain ⟨_, mid, dropped, h⟩ := bind_eq_ok h
      cases h
      exact .threw (.inl rfl) dropped
  | uncaught e =>
      obtain ⟨_, mid, dropped, h⟩ := bind_eq_ok h
      cases h
      exact .threw (.inr rfl) dropped

/-! ## Calls that return -/

theorem handleException_ok {e : Handle} {o : Option RunOutcome}
    (h : handleException host e level s m = .ok o m') :
    ∃ cls, Unwound host e cls level s m o m' := by
  rw [handleException, bind_of_ok heap_run] at h
  obtain ⟨cls, mid, found, h⟩ := bind_eq_ok h
  have same := (Keeps.ofExcept (R := Eq) _).of_ok found
  rw [← same, bind_of_ok thread_run] at h
  exact ⟨cls.name, unwind_ok host e cls.name level h⟩

theorem handleException_error {e : Handle} {stop : Stop}
    (h : handleException host e level s m = .error stop m') : UnwindStop host e s stop m m' := by
  rw [handleException, bind_of_ok heap_run] at h
  obtain failed | ⟨cls, mid, found, h⟩ := bind_eq_error h
  · exact .here ((Keeps.ofExcept _).of_error failed)
  · have same := (Keeps.ofExcept (R := Eq) _).of_ok found
    rw [← same, bind_of_ok thread_run] at h
    exact unwind_error host e cls.name level h

theorem deliverUncaught_ok {e : Handle} {o : RunOutcome}
    (h : deliverUncaught host e s m = .ok o m') : o = .uncaught e :=
  ((deliverUncaught_along (acts_calls (d := .free) host) e).of_ok trivial h).2

/-- An exception never makes a run complete. -/
theorem Unwound.not_completed {e : Handle} {cls : String} {o : Option RunOutcome}
    (h : Unwound host e cls level s m o m') : o ≠ some .completed := by
  induction h with
  | caught => simp
  | ended => simp
  | delivered _ _ _ delivered =>
      rw [deliverUncaught_ok delivered]
      simp
  | left _ _ _ ih => exact ih

/-- A run completes with an instruction that leaves a frame, and no exception is pending then. -/
theorem turn_completed (h : turn host level s m = .ok (some .completed) m') :
    ∃ b, Begun m b ∧ step host s b = .ok .leave m' ∧ m'.thread.pending = none := by
  generalize answer : some RunOutcome.completed = o at h
  cases turn_ok h with
  | halted => cases answer
  | @settled b _ flow begins stepped pending =>
      obtain rfl : flow = .leave := by
        by_contra more
        simp [more] at answer
      exact ⟨b, begins, stepped, pending⟩
  | handled _ _ _ handled =>
      obtain ⟨cls, unwound⟩ := handleException_ok handled
      exact absurd answer.symm unwound.not_completed

/-- A value that a call answers was popped. -/
theorem conclude_value {decl : MethodDecl} {base : Nat} {o : RunOutcome} {v : Value}
    (h : conclude decl base o s m = .ok (.returned (some v)) m') : pop s m = .ok v m' := by
  cases conclude_cases h with
  | value _ popped => exact popped

theorem conclude_returned {decl : MethodDecl} {base : Nat} {o : RunOutcome} {v : Option Value}
    (h : conclude decl base o s m = .ok (.returned v) m') : o = .completed ∧ m.SamePending m' := by
  have samePending : m.SamePending m' := (conclude_keeps decl base o).of_ok h
  cases conclude_cases h with
  | void _ => exact ⟨rfl, samePending⟩
  | value _ _ => exact ⟨rfl, samePending⟩

end Exec

namespace Engine

open Exec

/-- What the instructions of a machine work with, within a budget. -/
abbrev host (natives : Natives) (n : Nat) : Host := ⟨reentry natives n, natives⟩

theorem reentry_call_zero (natives : Natives) (cls : LoadedClass) (decl : MethodDecl)
    (args : List Value) (s : Settings) (m : Machine) :
    (reentry natives 0).call cls decl args s m = .error .exhausted m := by
  simp only [reentry, call]
  rfl

theorem reentry_run_zero (natives : Natives) (s : Settings) (m : Machine) :
    (reentry natives 0).run s m = .error .exhausted m := by
  simp only [reentry, run]
  rfl

theorem reentry_call_succ (natives : Natives) (n : Nat) :
    (reentry natives (n + 1)).call = execute (host natives n) := by
  funext cls decl args
  exact call.eq_2 natives cls decl args n

theorem reentry_run_succ (natives : Natives) (n : Nat) :
    (reentry natives (n + 1)).run = runLoop (host natives n) n := run.eq_2 natives n

/-- A call that is over was made with a budget. -/
theorem reentry_call_ok {natives : Natives} {n : Nat} {cls : LoadedClass} {decl : MethodDecl}
    {args : List Value} {s : Settings} {m m' : Machine} {i : Invocation}
    (h : (reentry natives n).call cls decl args s m = .ok i m') :
    ∃ k, n = k + 1 ∧ execute (host natives k) cls decl args s m = .ok i m' := by
  cases n with
  | zero =>
      rw [reentry_call_zero] at h
      cases h
  | succ k =>
      rw [reentry_call_succ] at h
      exact ⟨k, rfl, h⟩

/-- A run that is over was begun with a budget. -/
theorem reentry_run_ok {natives : Natives} {n : Nat} {s : Settings} {m m' : Machine}
    {o : RunOutcome} (h : (reentry natives n).run s m = .ok o m') :
    ∃ k, n = k + 1 ∧ runLoop (host natives k) k s m = .ok o m' := by
  cases n with
  | zero =>
      rw [reentry_run_zero] at h
      cases h
  | succ k =>
      rw [reentry_run_succ] at h
      exact ⟨k, rfl, h⟩

theorem run_completed {natives : Natives} {n : Nat} {s : Settings} {m m' : Machine}
    (h : run natives n s m = .ok .completed m') : m'.thread.pending = none := by
  obtain ⟨k, -, h⟩ := reentry_run_ok h
  obtain ⟨mid, looped, rfl⟩ := runLoop_ok h
  obtain ⟨last, -, final⟩ := loop_ok looped
  obtain ⟨_, -, -, pending⟩ := turn_completed final
  exact pending

/-- Every call that returns leaves no exception pending. -/
theorem settles (natives : Natives) (n : Nat) : (reentry natives n).Settles := by
  intro cls decl args s m v m' h
  obtain ⟨k, -, h⟩ := reentry_call_ok h
  obtain ⟨-, events, outcome, ran, d, outer, ran', depths, concluded⟩ := execute_ok h
  obtain ⟨rfl, samePending⟩ := conclude_returned concluded
  rw [samePending]
  generalize answer : RunOutcome.completed = o at ran'
  cases ran' with
  | run _ run =>
      subst answer
      have pending := run_completed run
      exact pending
  | done _ pending => exact pending
  | threw => cases answer
  | uncaught _ _ _ delivered =>
      rw [deliverUncaught_ok delivered] at answer
      cases answer

end Engine

end JavaMachine
