import JavaMachine.Proofs.Balance

/-!
# The results of calls

The result of a call goes a long way.  A return instruction takes it from the operands of the
method's frame, as a value of the type that the method declares, leaves the frame and pushes it
for the caller; the run of the call is over, and the call pops what it finds on top.  A return
without a value takes the same way with nothing to carry, and there the last step goes wrong: the
call pops all the same, and what it pops belongs to its caller.

This module follows the value.  A run that completes has one frame left in front of its last turn,
that of the method, and its next instruction returns: with a value, which is then on top of the
caller's operands, or without.  So a call answers the value of the method itself, and leaves the
operands of its caller alone, unless the method is left without one while the caller has operands.
When the caller has none there is nothing to pop, and the call is a fault.
-/

namespace JavaMachine

open Relation (ReflTransGen)

/-- The next instruction of a frame. -/
def Frame.Next (f : Frame) (op : Opcode) : Prop :=
  f.pc < f.codeLength ∧ Opcode.ofByte (f.byteAt f.pc) = op

namespace Machine

/-- A method is about to return a value: its frame is the current one, directly on top of the
others, its next instruction returns a value, and its top operand is that value as one of the
result type. -/
def Gives (decl : MethodDecl) (low : List Frame) (v : Value) (m : Machine) : Prop :=
  ∃ f o, m.frames = f :: low ∧ f.method = decl ∧ f.Next .returnValue ∧
    m.thread.frameOperands.getLast? = some o ∧ o.value.coerceTo decl.type.result = .ok v

/-- A method is about to return without a value. -/
def Quits (decl : MethodDecl) (low : List Frame) (m : Machine) : Prop :=
  ∃ f, m.frames = f :: low ∧ f.method = decl ∧ f.Next .returnVoid

theorem Gives.not_quits {decl : MethodDecl} {low : List Frame} {v : Value} {m : Machine}
    (h : m.Gives decl low v) : ¬ m.Quits decl low := by
  rintro ⟨f, top, -, -, void⟩
  obtain ⟨f', o, top', -, ⟨-, value⟩, -⟩ := h
  cases top.symm.trans top'
  cases value.symm.trans void

end Machine

namespace Exec

variable {host : Host} {level : Nat} {s : Settings} {m m' : Machine} {cls : LoadedClass}
  {decl : MethodDecl} {args : List Value}

/-! ## The instruction that is fetched -/

theorem onFrame_eq_ok {α : Type} {g : Frame → Except Fault (α × Frame)} {f : Frame}
    {rest : List Frame} {a : α} (current : m.thread.frames = f :: rest)
    (h : onFrame g s m = .ok a m') : ∃ f', g f = .ok (a, f') := by
  have found : m.thread.frame = .ok f := by rw [Thread.frame, current]
  cases taken : g f with
  | error e =>
      rw [onFrame, onThread_of_error (e := e) (by rw [found]; simp [bind, Except.bind, taken])] at h
      cases h
  | ok result =>
      obtain ⟨b, f'⟩ := result
      rw [onFrame, onThread_of_ok (a := b) (t := m.thread.setFrame f')
        (by rw [found]; simp only [bind, Except.bind, taken]; rfl)] at h
      cases h
      exact ⟨f', rfl⟩

theorem readBytes_one {f f' : Frame} {n : Nat} (h : f.readBytes 1 = .ok (n, f')) :
    f.pc < f.codeLength ∧ n = (f.byteAt f.pc).toNat := by
  rw [Frame.readBytes, Frame.advance] at h
  split at h
  next fits =>
    cases h
    simp only [Frame.canRead, decide_eq_true_eq] at fits
    exact ⟨fits, by simp⟩
  next => cases h

/-- The byte that is fetched is the next one of the current frame. -/
theorem fetch_byte {f : Frame} {rest : List Frame} {byte : UInt8}
    (current : m.thread.frames = f :: rest) (h : fetch s m = .ok byte m') :
    f.pc < f.codeLength ∧ byte = f.byteAt f.pc := by
  have begun : moveFrame (fun f => .ok f.beginInstruction) s m =
      .ok () { m with thread := { m.thread with frames := f.beginInstruction :: rest } } :=
    moveFrame_of_ok current rfl
  rw [fetch, bind_of_ok begun] at h
  obtain ⟨byte', mid, read, h⟩ := bind_eq_ok h
  have same : byte' = byte := by
    obtain ⟨_, _, -, h⟩ := bind_eq_ok h
    dsimp only at h
    split at h
    · obtain ⟨_, _, -, h⟩ := bind_eq_ok h
      obtain ⟨_, _, -, h⟩ := bind_eq_ok h
      cases h
      rfl
    · cases h
      rfl
  obtain ⟨n, _, taken, read⟩ := bind_eq_ok read
  cases read
  obtain ⟨f', bytes⟩ := onFrame_eq_ok rfl taken
  obtain ⟨inside, rfl⟩ := readBytes_one bytes
  refine ⟨inside, ?_⟩
  rw [← same]
  exact UInt8.ofNat_toNat

/-! ## Instructions that end a run -/

/-- An instruction that ends the run returns: with a value, when its opcode is one that returns
values, or without. -/
theorem step_leaves {f : Frame} {rest : List Frame} (current : m.thread.frames = f :: rest)
    (h : step host s m = .ok .leave m') :
    ∃ f' a b v outer events bare, Fetches f f' rest m a ∧ Yields f' a v b ∧
      b.thread.depths = 1 :: outer ∧ m' = (b.without [f'] (0 :: outer) events).handed v bare ∧
      f.Next (if v.isSome then .returnValue else .returnVoid) := by
  obtain ⟨byte, a, fetched, h⟩ := bind_eq_ok h
  obtain ⟨inside, rfl⟩ := fetch_byte current fetched
  obtain ⟨f₀, f', rest', fetches⟩ := fetch_ok fetched
  cases current.symm.trans fetches.before
  -- the frame that is left is the last one of the run
  have last {b c : Machine} {v : Option Value} (yields : Yields f' a v b)
      (left : leave v s b = .ok .leave c) : ∃ outer events, b.thread.depths = 1 :: outer ∧
        c = (b.without [f'] (0 :: outer) events).handed v b.thread.bare := by
    obtain ⟨n, outer, events, counter, flow, rfl⟩ := leave_returned fetches yields left
    obtain rfl : n = 0 := by
      by_contra more
      simp [more] at flow
    exact ⟨outer, events, counter, rfl⟩
  by_cases value : Opcode.ofByte (f.byteAt f.pc) = .returnValue
  · rw [value] at h
    obtain ⟨v, b, yields, run⟩ | ⟨stop, b, -, run⟩ := returnValue_split (s := s) fetches.frames
    · obtain ⟨outer, events, counter, rfl⟩ := last yields (run.symm.trans h)
      exact ⟨f', a, b, some v, outer, events, _, fetches, yields, counter, rfl, inside, value⟩
    · cases run.symm.trans h
  · by_cases void : Opcode.ofByte (f.byteAt f.pc) = .returnVoid
    · rw [void] at h
      have whole : returnVoid s a = .ok .leave m' := h
      rw [returnVoid_run fetches.frames] at whole
      obtain ⟨flow, b, left, marked⟩ := bind_eq_ok whole
      rw [markBare_run] at marked
      cases marked
      obtain ⟨outer, events, counter, rfl⟩ := last (.nothing a) left
      exact ⟨f', a, a, none, outer, events, _, fetches, .nothing a, counter, rfl, inside, void⟩
    · rw [perform_plain value void] at h
      obtain ⟨_, b, -, h⟩ := bind_eq_ok h
      cases h

/-- The last frame that a run has counted is left. -/
theorem step_leaves_counted {f : Frame} {rest : List Frame} (current : m.thread.frames = f :: rest)
    (h : step host s m = .ok .leave m') : ∃ outer, m.thread.depths = 1 :: outer := by
  obtain ⟨f', a, b, v, outer, events, bare, fetches, yields, counter, -⟩ := step_leaves current h
  rw [yields.sameFrames.depths, fetches.thread] at counter
  exact ⟨outer, counter⟩

theorem frameOperands_getLast? {o : Operand} (took : Took m [o] m')
    (reached : m.base ≤ m.operands.length) : m.thread.frameOperands.getLast? = some o := by
  have below := took.reaches reached
  have split : m.thread.operands.toList = m'.operands ++ [o] := took.split
  have base : m.thread.stackBase = m.base := rfl
  rw [Thread.frameOperands, split, base, List.drop_append_of_le_length below,
    List.getLast?_concat]

/-! ## The end of a run -/

section Turns

variable {low own : List Frame} {kept : List Operand} {outer : List Nat} {n : Nat}

/-- The instruction that ends a run, in the only frame of the run: the operands below the frame
are left, with the value on top if there is one. -/
theorem step_gives {f : Frame} (above : m.Above low kept [f]) (base : f.stackBase = kept.length)
    (h : step host s m = .ok .leave m') :
    m'.frames = low ∧ (∃ outer, m'.thread.depths = 0 :: outer) ∧
      ((∃ v, m.Gives f.method low v ∧ m'.operands = kept ++ [⟨v, Frame.mark low⟩]) ∨
        m.Quits f.method low ∧ m'.operands = kept) := by
  have current : m.frames = f :: low := above.frames
  obtain ⟨f', a, b, v, outer, events, bare, fetches, yields, -, rfl, next⟩ := step_leaves current h
  have fetched := fetches.fetched
  have operands : a.operands = m.operands := by rw [Machine.operands, fetches.thread]
  have fetching : a.Above low kept [f'] := by
    refine ⟨fetches.frames, fun g hg => ?_, by rw [operands]; exact above.operands⟩
    rw [List.mem_singleton.mp hg, fetched.stackBase, base]
  have reached : a.base ≤ a.operands.length := by
    rw [Machine.base, Thread.stackBase_eq_floor fetches.frames]
    exact (fetched.stackBase.trans base).le.trans fetching.operands.length_le
  have yielding : b.Above low kept [f'] := fetching.rework (yields.frames fetches.frames)
    fetching.apart (fetching.base_le (.inl (List.cons_ne_nil _ _)))
    (yields.sameFrames.operands reached).below
  have left := left_above yielding (0 :: outer) events
  have tag : (b.without [f'] (0 :: outer) events).tag = Frame.mark low :=
    Thread.instructionPc_eq_mark left.frames
  refine ⟨left.frames, ⟨outer, rfl⟩, ?_⟩
  rw [Machine.handed_operands, left_operands yielding (fetched.stackBase.trans base), tag]
  cases yields with
  | nothing => exact .inr ⟨⟨f, current, rfl, next⟩, List.append_nil _⟩
  | @value _ o v took coerced =>
      rw [fetched.method] at coerced
      have same : m.thread.frameOperands = a.thread.frameOperands := by
        rw [Thread.frameOperands, Thread.frameOperands, Thread.stackBase_eq_floor current,
          Thread.stackBase_eq_floor fetches.frames]
        show m.operands.drop f.stackBase = a.operands.drop f'.stackBase
        rw [operands, fetched.stackBase]
      exact .inl ⟨v, ⟨f, o, current, rfl, next,
        same ▸ frameOperands_getLast? took reached, coerced⟩, rfl⟩

/-- The last turn of a run that completes leaves the frame of its method. -/
theorem turn_gives (running : m.Running .strict low kept outer own n)
    (ground : Frame.Grounded kept.length decl own)
    (h : turn host level s m = .ok (some .completed) m') :
    m'.frames = low ∧ (∃ outer, m'.thread.depths = 0 :: outer) ∧
      ((∃ v, m.Gives decl low v ∧ m'.operands = kept ++ [⟨v, Frame.mark low⟩]) ∨
        m.Quits decl low ∧ m'.operands = kept) := by
  have unhalted : m.world.halted = false := by
    by_contra halted
    rw [turn_halted (by simpa using halted)] at h
    cases h
  obtain ⟨b, begins, stepped, -⟩ := turn_completed h
  obtain ⟨f, upper, rfl⟩ := List.exists_cons_of_ne_nil running.ne_nil
  -- one frame is counted, so the run has no other one than that of the method
  obtain rfl : upper = [] := by
    obtain ⟨outer', counter⟩ :=
      step_leaves_counted (begins.sameStacks.frames.trans running.frames) stepped
    cases running.depths.symm.trans (begins.sameStacks.depths.symm.trans counter)
    have exact := running.exact rfl unhalted
    rw [Discipline.slack_of_clear rfl] at exact
    simpa using exact
  obtain ⟨-, base, rfl⟩ | lower := ground.tail
  · have above := running.toAbove.sameStacks begins.sameStacks
    have same : b.thread.frameOperands = m.thread.frameOperands := by
      rw [Thread.frameOperands, Thread.frameOperands, Thread.stackBase_eq_floor above.frames,
        Thread.stackBase_eq_floor running.frames]
      exact congrArg (List.drop _) begins.sameStacks.operands
    obtain ⟨frames, depths, ⟨v, ⟨g, o, top, method, next, last, coerced⟩, operands⟩ |
      ⟨⟨g, top, method, next⟩, operands⟩⟩ := step_gives above base stepped
    · exact ⟨frames, depths, .inl ⟨v, ⟨g, o, begins.sameStacks.frames.symm.trans top, method, next,
        same ▸ last, coerced⟩, operands⟩⟩
    · exact ⟨frames, depths, .inr
        ⟨⟨g, begins.sameStacks.frames.symm.trans top, method, next⟩, operands⟩⟩
  · exact absurd rfl lower.ne_nil

end Turns

/-! ## Calls -/

/-- A method that has code and gets no frame has raised an exception. -/
theorem invoke_unentered (code : decl.flags.isNative = false)
    (h : invoke host cls decl s m = .ok false m') : m'.thread.pending ≠ none := by
  cases invoke_cases h with
  | abstract raised => exact raise_pending raised
  | native native => exact absurd native (by rw [code]; exact Bool.false_ne_true)
  | overflow _ _ _ raised => exact raise_pending raised

end Exec

namespace Sample

/-- A static method without arguments whose result is a number. -/
def valued (code : List UInt8) : MethodDecl :=
  { method code [] with descriptor := "()I", type := ⟨[], .int⟩, typed := by decide }

/-- A static method without arguments whose result is an object. -/
def yielding (code : List UInt8) : MethodDecl :=
  { method code [] with
    descriptor := "()Ljava/lang/Object;"
    type := ⟨[], .reference "java/lang/Object"⟩
    typed := by decide }

/-- A thread without frames. -/
def outside : Machine := ⟨{}, { id := 0 }⟩

theorem outside_wellFormed : outside.thread.WellFormed :=
  ⟨List.Pairwise.nil, by simp [outside], by simp [outside], Nat.le_refl 0⟩

end Sample

namespace Engine

open Exec

variable {natives : Natives} {budget : Nat} {cls : LoadedClass} {decl : MethodDecl}
  {args : List Value} {s : Settings} {m m' last ran : Machine}

/-- The run of a call completes: the method has got a frame, the run has come to a machine, and
the next turn completes it in another one.  A smaller budget than this has no run. -/
inductive Finishes (natives : Natives) (cls : LoadedClass) (decl : MethodDecl) (args : List Value)
    (s : Settings) (m : Machine) : Nat → Machine → Machine → Prop
  | intro {n : Nat} {mid last ran : Machine} : args.length = decl.argCount →
      invoke (host natives (n + 1)) cls decl s ((prepare decl args).after s m) = .ok true mid →
      loop (host natives n) (mid.thread.level + 1) n s (mid.atLevel (mid.thread.level + 1)) =
        .ok .completed ran →
      ReflTransGen (Round (host natives n) (mid.thread.level + 1) s)
        (mid.atLevel (mid.thread.level + 1)) last →
      turn (host natives n) (mid.thread.level + 1) s last = .ok (some .completed) ran →
      Finishes natives cls decl args s m (n + 2) last ran

/-- The machine in which the run of a call is over: it is no longer counted among the runs in
progress, and neither is its counter. -/
def finished (ran : Machine) : Machine :=
  (ran.atLevel (ran.thread.level - 1)).withDepths ran.thread.depths.tail

/-- A call of a method with code that returns has completed its run. -/
theorem finishes_of_returned {v : Option Value} (code : decl.flags.isNative = false)
    (h : call natives budget cls decl args s m = .ok (.returned v) m') :
    ∃ last ran, Finishes natives cls decl args s m budget last ran ∧
      conclude decl m.thread.operandDepth .completed s (finished ran) = .ok (.returned v) m' := by
  obtain ⟨n, rfl, called⟩ := reentry_call_ok h
  obtain ⟨count, outcome, ran, d, outer, run, depths, concluded⟩ := execute_ran called
  obtain ⟨rfl, -⟩ := conclude_returned concluded
  generalize answer : RunOutcome.completed = o at run
  cases invokeAndRun_ok run with
  | @run mid _ _ entered ran' =>
      subst answer
      obtain ⟨n, rfl, counted⟩ := reentry_run_ok ran'
      obtain ⟨ran, looped, rfl⟩ := runLoop_ok counted
      obtain ⟨last, rounds, final⟩ := loop_ok looped
      have same : ran.thread.depths.tail = outer := by
        rw [show ran.thread.depths = d :: outer from depths, List.tail_cons]
      refine ⟨last, ran, .intro count entered looped rounds final, ?_⟩
      rw [finished, same]
      exact concluded
  | done unentered pending => exact absurd pending (invoke_unentered code unentered)
  | threw => cases answer
  | uncaught _ _ _ delivered =>
      rw [deliverUncaught_ok delivered] at answer
      cases answer

/-- A call whose run completes is concluded there. -/
theorem Finishes.call_eq (h : Finishes natives cls decl args s m budget last ran)
    {d : Nat} {outer : List Nat} (depths : ran.thread.depths = d :: outer) :
    call natives budget cls decl args s m =
      conclude decl m.thread.operandDepth .completed s (finished ran) := by
  cases h with
  | @intro n mid _ _ count entered looped rounds final =>
      have run : invokeAndRun (host natives (n + 1)) cls decl s ((prepare decl args).after s m) =
          .ok .completed (ran.atLevel (ran.thread.level - 1)) := by
        rw [invokeAndRun, bind_of_ok entered]
        show (reentry natives (n + 1)).run s mid = _
        rw [reentry_run_succ, runLoop_run, bind_of_ok (attempt_of_ok looped)]
        rfl
      rw [finished, depths, List.tail_cons]
      show (reentry natives (n + 2)).call cls decl args s m = _
      rw [reentry_call_succ]
      exact execute_of_ran count run depths

/-- In front of its last turn, a run that completes has only the frame of its method, which is
about to return. -/
theorem Finishes.gives (hn : ∀ n, natives.Keep .strict (reentry natives n))
    (wf : m.thread.WellFormed) (clear : m.thread.pending = none)
    (h : Finishes natives cls decl args s m budget last ran) :
    ran.frames = m.frames ∧ (∃ outer, ran.thread.depths = 0 :: outer) ∧
      ((∃ v, last.Gives decl m.frames v ∧
          ran.operands = m.operands ++ [⟨v, Frame.mark m.frames⟩]) ∨
        last.Quits decl m.frames ∧ ran.operands = m.operands) := by
  cases h with
  | @intro n mid _ _ count entered looped rounds final =>
      obtain ⟨events, prepared⟩ := prepare_run (s := s) (m := m) decl args
      rw [after_of_ok prepared] at entered
      have ready : Discipline.strict.Ready (m.prepared args events) := fun _ => clear
      have entering : (m.prepared args events).Upkeep s.config.maxFrames mid :=
        after_of_ok entered ▸ invoke_upkeep (hn (n + 1)) (upholds hn (n + 1)) ready cls decl
      obtain ⟨kept, own, running, -, ground⟩ := entered_running (d := .strict) (Nat.zero_le _) count
        (invoke_ok (hn (n + 1)) ready entered)
      obtain ⟨rfl, grounded⟩ := ground rfl
      have counted : mid.Upkeep 0 (mid.atLevel (mid.thread.level + 1)) := Machine.upkeep_atLevel _
      have entered_ready : Discipline.strict.Ready mid := invoke_ready (hn (n + 1)) ready entered
      obtain ⟨-, -, own', k, running', -, ground'⟩ := rounds_running (.inr rfl) (hn n)
        (settles natives n) (spares (.inr rfl) hn n) (upholds hn n)
        (m := mid.atLevel (mid.thread.level + 1)) entered_ready
        (counted.wellFormed (entering.wellFormed (prepared_wellFormed wf)))
        (running_atLevel running _) rounds
      have gives := turn_gives running' (ground' rfl grounded) final
      rwa [drop_slack rfl] at gives

theorem finished_pop {o : Operand} {ops : List Operand} {v : Value}
    (operands : ran.operands = ops ++ [o]) (h : pop s (finished ran) = .ok v m') :
    v = o.value ∧ m'.operands = ops := by
  obtain ⟨o', _, popped, h⟩ := bind_eq_ok h
  cases h
  have split : ran.operands = m'.operands ++ [o'] := (popOperand_took popped).split
  have same := operands.symm.trans split
  obtain ⟨rfl, last⟩ := List.append_inj' same rfl
  cases last
  exact ⟨rfl, rfl⟩

/-- There is nothing to pop for a caller that has no operands. -/
theorem finished_pop_empty (frames : ran.frames = m.frames) (operands : ran.operands = m.operands)
    (empty : m.thread.operandDepth = 0) :
    pop s (finished ran) = .error (.fault .stackUnderflow) (finished ran) := by
  have none : (finished ran).thread.operandDepth = 0 := by
    have own : m.thread.stackBase = Frame.floor m.frames := Thread.stackBase_eq_floor rfl
    rw [Thread.operandDepth, Thread.stackBase_eq_floor (t := (finished ran).thread) frames,
      ← Array.length_toList]
    rw [Thread.operandDepth, own, ← Array.length_toList] at empty
    exact (congrArg (fun ops => List.length ops - _) operands).trans empty
  exact bind_of_error (onThread_of_error (by rw [Thread.popOperand, if_pos none]))

/-- A call answers the value of its method.

When a call of a method with code and a result returns a value, then in front of the last turn of
its run the frame of the method was about to return that value by an instruction for it, and the
operands of the caller are those before the call; this holds if the caller has no operands of its
own, or if the method is not left by a return without a value.  If it is left by such a return and
the caller has no operands, then the call is a fault, and the operands are those before it. -/
theorem call_answers (hn : ∀ n, natives.Keep .strict (reentry natives n))
    (code : decl.flags.isNative = false) (value : decl.type.result ≠ .void)
    (wf : m.thread.WellFormed) (clear : m.thread.pending = none) :
    (∀ v m', call natives budget cls decl args s m = .ok (.returned (some v)) m' →
      ∃ last ran, Finishes natives cls decl args s m budget last ran ∧
        (m.thread.operandDepth = 0 ∨ ¬ last.Quits decl m.frames →
          last.Gives decl m.frames v ∧ m'.operands = m.operands)) ∧
    (∀ last ran, Finishes natives cls decl args s m budget last ran → last.Quits decl m.frames →
      m.thread.operandDepth = 0 →
      ∃ m', call natives budget cls decl args s m = .error (.fault .stackUnderflow) m' ∧
        m'.operands = m.operands) := by
  have concludes (mid : Machine) : conclude decl m.thread.operandDepth .completed s mid =
      (do return .returned (some (← pop)) : Exec Invocation) s mid := by
    rw [conclude, if_neg value]
  refine ⟨fun v m' returned => ?_, fun last ran finishes quits empty => ?_⟩
  · obtain ⟨last, ran, finishes, concluded⟩ := finishes_of_returned code returned
    refine ⟨last, ran, finishes, fun sound => ?_⟩
    rw [concludes] at concluded
    obtain ⟨w, mid, popped, concluded⟩ := bind_eq_ok concluded
    cases concluded
    obtain ⟨frames, -, ⟨w, gives, operands⟩ | ⟨quits, operands⟩⟩ := finishes.gives hn wf clear
    · obtain ⟨rfl, kept⟩ := finished_pop operands popped
      exact ⟨gives, kept⟩
    · have empty := sound.resolve_right (not_not.mpr quits)
      rw [finished_pop_empty frames operands empty] at popped
      cases popped
  · obtain ⟨frames, ⟨outer, depths⟩, ⟨w, gives, -⟩ | ⟨-, operands⟩⟩ := finishes.gives hn wf clear
    · exact absurd quits gives.not_quits
    · refine ⟨finished ran, ?_, operands⟩
      rw [finishes.call_eq depths, concludes,
        bind_of_error (finished_pop_empty frames operands empty)]

/-- A method that returns three is called by a thread without frames. -/
theorem call_answers_three : ∃ m' last ran,
    call coreNatives 4 Sample.cls (Sample.valued [0x06, 0xac]) [] {} Sample.outside =
      .ok (.returned (some (.int 3))) m' ∧
    Finishes coreNatives Sample.cls (Sample.valued [0x06, 0xac]) [] {} Sample.outside 4 last ran ∧
    last.Gives (Sample.valued [0x06, 0xac]) [] (.int 3) ∧
    m'.operands = Sample.outside.operands := by
  obtain ⟨m', run⟩ : ∃ m', call coreNatives 4 Sample.cls (Sample.valued [0x06, 0xac]) [] {}
      Sample.outside = .ok (.returned (some (.int 3))) m' := ⟨_, by rfl⟩
  obtain ⟨last, ran, finishes, answers⟩ := (call_answers (fun k => coreNatives_keep .strict _)
    (by rfl) (by decide) Sample.outside_wellFormed rfl).1 _ m' run
  obtain ⟨gives, operands⟩ := answers (.inl rfl)
  exact ⟨m', last, ran, run, finishes, gives, operands⟩

/-- A method that returns without a value although its type has one answers an operand of its
caller, and takes it away. -/
theorem call_answers_bare : ∃ m',
    Sample.caller.thread.WellFormed ∧ Sample.caller.thread.pending = none ∧
    call coreNatives 4 Sample.cls (Sample.valued [0xb1]) [] {} Sample.caller =
      .ok (.returned (some (.int 5))) m' ∧
    Sample.caller.operands = [⟨.int 5, 3⟩] ∧ m'.operands = [] :=
  ⟨_, Sample.caller_wellFormed, rfl, by rfl, rfl, by rfl⟩

end Engine

end JavaMachine
