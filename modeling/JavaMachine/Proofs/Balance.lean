import JavaMachine.Proofs.Calls

/-!
# The balance of a call

A call that returns, or that ends in an exception, leaves the stacks of its caller exactly as they
were.  For the frames and the counters this is `Engine.spares`.  For the operands it takes more: the
last frame of a method that is not void must be left with a value, because the conclusion of the
call takes one off, and a native must replace its arguments by its result.

Nothing is asked of the natives and methods that a call runs on its way, since what they do to the
operands of frames above the caller is gone when these frames are left.  Only the method of the call
itself acts on the operands of the caller, and so does the method that an uncaught exception is
delivered to.
-/

namespace JavaMachine

namespace Library

/-! ## Methods by name -/

theorem method?_named {c : ClassDecl} {name descriptor : String} {decl : MethodDecl}
    (h : c.method? name descriptor = some decl) :
    decl.name = name ∧ decl.descriptor = descriptor := by
  have found := List.find?_some h
  simpa using found

theorem interfaceMethodWithin_named {lib : Library} {name descriptor : String} {decl : MethodDecl} :
    ∀ {n : Nat} {className : String},
      lib.interfaceMethodWithin n className name descriptor = some decl →
      decl.name = name ∧ decl.descriptor = descriptor
  | 0, _, h => by cases h
  | n + 1, className, h => by
      obtain ⟨c, -, h⟩ := Option.bind_eq_some_iff.mp h
      rw [Option.orElse_eq_orElse, Option.orElse_eq_or] at h
      obtain above | ⟨-, above⟩ := Option.or_eq_some_iff.mp h
      · obtain ⟨i, -, found⟩ := List.exists_of_findSome?_eq_some above
        rw [Option.orElse_eq_or] at found
        obtain own | ⟨-, higher⟩ := Option.or_eq_some_iff.mp found
        · obtain ⟨d, -, own⟩ := Option.bind_eq_some_iff.mp own
          exact method?_named own
        · exact interfaceMethodWithin_named higher
      · obtain ⟨super, -, higher⟩ := Option.bind_eq_some_iff.mp above
        exact interfaceMethodWithin_named higher

theorem findVirtual_named {lib : Library} {c : LoadedClass} {name descriptor : String}
    {decl : MethodDecl} (h : lib.findVirtual c name descriptor = some decl) :
    decl.name = name ∧ decl.descriptor = descriptor := by
  rw [findVirtual, Option.orElse_eq_orElse, Option.orElse_eq_or] at h
  obtain chain | ⟨-, interface⟩ := Option.or_eq_some_iff.mp h
  · obtain ⟨d, -, found⟩ := List.exists_of_findSome?_eq_some chain
    exact method?_named (Option.filter_eq_some_iff.mp found).1
  · exact interfaceMethodWithin_named (Option.filter_eq_some_iff.mp interface).1

end Library

/-! ## Natives that replace their arguments -/

/-- The native of a method, if there is one, replaces its arguments by its result when it leaves no
exception pending, and pops at most its arguments otherwise.  Nothing is said of a native that is
halted, or that has called a method which was left without its value. -/
def Natives.Serves (ns : Natives) (decl : MethodDecl) (r : Reentry) : Prop :=
  ∀ native, ns.find? decl.signature = some native →
    ∀ s (m m' : Machine), native r s m = .ok () m' → m.thread.WellFormed →
      m.thread.pending = none → decl.argCount ≤ m.thread.operandDepth →
      m'.world.halted = false → m'.thread.bare = false →
      (m'.thread.pending = none → ∃ result,
        m'.operands = m.operands.take (m.operands.length - decl.argCount) ++ result ∧
          result.length = if decl.type.result = .void then 0 else 1) ∧
      m.operands.take (m.operands.length - decl.argCount) <+: m'.operands

/-- A method that uncaught exceptions are delivered to. -/
def MethodDecl.TakesUncaught (decl : MethodDecl) : Prop :=
  (decl.name, decl.descriptor) = Exec.uncaughtHandler ∧ decl.argCount = 3

namespace Exec

variable {α : Type} {host : Host} {s : Settings} {m m' : Machine} {cls : LoadedClass}
  {decl : MethodDecl}

/-! ## Raising an exception -/

theorem raiseOutOfMemory_pending (h : raiseOutOfMemory s m = .ok () m') :
    m'.thread.pending ≠ none := by
  obtain ⟨_, _, _, h⟩ := bind_eq_ok h
  obtain ⟨_, _, _, h⟩ := bind_eq_ok h
  obtain ⟨exception, _, _, h⟩ := bind_eq_ok h
  cases h
  simp

theorem orOutOfMemory_none {x : Exec α} (h : orOutOfMemory x s m = .ok none m') :
    m'.thread.pending ≠ none := by
  obtain ⟨result, mid, _, h⟩ := bind_eq_ok h
  cases result with
  | ok a => cases h
  | error e =>
      simp only at h
      split at h
      · obtain ⟨_, last, raised, h⟩ := bind_eq_ok h
        cases h
        exact raiseOutOfMemory_pending raised
      · cases h

/-- An exception that was raised is pending. -/
theorem raise_pending {className : String} {message : Option String}
    (h : raise className message s m = .ok () m') : m'.thread.pending ≠ none := by
  unfold raise at h
  split at h
  · exact raiseOutOfMemory_pending h
  · obtain ⟨_, _, _, h⟩ := bind_eq_ok h
    obtain ⟨c, _, _, h⟩ := bind_eq_ok h
    obtain ⟨exception, mid, allocated, h⟩ := bind_eq_ok h
    cases exception with
    | none =>
        cases h
        exact orOutOfMemory_none allocated
    | some exception =>
        cases message with
        | none =>
            cases h
            simp
        | some message =>
            obtain ⟨_, last, _, h⟩ := bind_eq_ok h
            cases h
            simp

/-! ## Calls without a frame -/

/-- A call that enters no frame has raised an exception, or it was the native's. -/
theorem invoke_over (h : invoke host cls decl s m = .ok false m') :
    m.SameStacks m' ∧ m'.thread.pending ≠ none ∨
      ∃ native a b, host.natives.find? decl.signature = some native ∧ m.SameThread a ∧
        native host.toReentry s a = .ok () b ∧ b.SameThread m' := by
  cases invoke_cases h with
  | abstract raised => exact .inl ⟨(raise_keeps _ _).of_ok raised, raise_pending raised⟩
  | @overflow mid told _ _ locked _ reported raised =>
      have before : m.SameStacks told := IsTrans.trans _ mid _
        ((callMonitor_keeps cls decl).of_ok locked) ((report_keeps _).of_ok reported)
      exact .inl ⟨IsTrans.trans _ _ _ before ((raise_keeps _ _).of_ok raised),
        raise_pending raised⟩
  | @native mid _ _ _ found ran =>
      have sameThread : m.SameThread mid := (callMonitor_keeps cls decl).of_ok found
      cases invokeNative_cases ran with
      | @missing told locked freed reported entered exited raised =>
          have before : m.SameThread freed := IsTrans.trans _ _ _ sameThread (IsTrans.trans _ _ _
            ((report_keeps _).of_ok reported)
            (IsTrans.trans _ _ _ (lock_sameThread entered) (unlock_sameThread exited)))
          obtain ⟨_, told', reported', raised⟩ := bind_eq_ok raised
          exact .inl ⟨IsTrans.trans _ _ _ before.sameStacks (IsTrans.trans _ _ _
            ((report_keeps _).of_ok reported') ((raise_keeps _ _).of_ok raised)),
            raise_pending raised⟩
      | @ran native told locked left reported entered registered run exited =>
          have before : m.SameThread locked := IsTrans.trans _ _ _ sameThread (IsTrans.trans _ _ _
            ((report_keeps _).of_ok reported) (lock_sameThread entered))
          exact .inr ⟨native, locked, left, registered, before, run, unlock_sameThread exited⟩

/-! ## The delivery of an exception -/

/-- What is found for the delivery of an exception is a method that takes it, with its arguments. -/
theorem seekGroup_some {exception : Handle} {handler : MethodDecl} {args : List Value}
    (h : seekGroup exception s m = .ok (some (cls, handler, args)) m') :
    (handler.name, handler.descriptor) = uncaughtHandler ∧ args.length = 3 := by
  obtain ⟨_, _, -, h⟩ := bind_eq_ok h
  obtain ⟨exceptionClass, _, -, h⟩ := bind_eq_ok h
  obtain ⟨group, _, -, h⟩ := bind_eq_ok h
  cases group with
  | none =>
      obtain ⟨_, _, -, h⟩ := bind_eq_ok h
      cases h
  | some pair =>
      obtain ⟨thread, group⟩ := pair
      simp only at h
      obtain ⟨_, _, -, h⟩ := bind_eq_ok h
      obtain ⟨groupClass, _, -, h⟩ := bind_eq_ok h
      obtain ⟨lib, _, -, h⟩ := bind_eq_ok h
      cases chosen : lib.findVirtual groupClass uncaughtHandler.1 uncaughtHandler.2 with
      | none =>
          simp only [chosen] at h
          cases h
      | some handler =>
          simp only [chosen] at h
          obtain ⟨_, _, -, h⟩ := bind_eq_ok h
          obtain ⟨_, _, -, h⟩ := bind_eq_ok h
          cases h
          have named := Library.findVirtual_named chosen
          exact ⟨Prod.ext named.1 named.2, rfl⟩

/-- Delivering an exception is a call of the group's method, if there is one, beside the stacks. -/
theorem deliverUncaught_split {exception : Handle} {o : RunOutcome}
    (h : deliverUncaught host exception s m = .ok o m') :
    m.SameStacks m' ∨ ∃ a cls handler args i b, m.SameStacks a ∧ a.thread.pending = none ∧
      (handler.name, handler.descriptor) = uncaughtHandler ∧ args.length = 3 ∧
      host.call cls handler args s a = .ok i b ∧ b.SameStacks m' := by
  rw [deliverUncaught_eq] at h
  obtain ⟨_, taken, took, h⟩ := bind_eq_ok h
  obtain ⟨group, found, sought, h⟩ := bind_eq_ok h
  obtain ⟨_, last, called, h⟩ := bind_eq_ok h
  cases h
  have first : m.SameStacks taken := takePending_keeps.of_ok took
  have sameThread : taken.SameThread found := (seekGroup_keeps _).of_ok sought
  cases group with
  | none =>
      cases called
      exact .inl (IsTrans.trans _ _ _ first sameThread.sameStacks)
  | some group =>
      obtain ⟨cls, handler, args⟩ := group
      obtain ⟨_, noted, recorded, called⟩ := bind_eq_ok called
      obtain ⟨i, b, called, dropped⟩ := bind_eq_ok called
      obtain ⟨named, three⟩ := seekGroup_some sought
      have before : taken.SameThread noted := IsTrans.trans _ _ _ sameThread
        ((record_sameThreadMonitors _).sameThread.of_ok recorded)
      have clear : taken.thread.pending = none := by cases took; rfl
      exact .inr ⟨noted, cls, handler, args, i, b, IsTrans.trans _ _ _ first before.sameStacks,
        by rw [before.thread]; exact clear, named, three, called, (dropSecond_keeps i).of_ok dropped⟩

/-! ## The conclusion of a call -/

/-- Dropping what a failed call has left on top of the operands of the caller. -/
theorem dropTo_restores {ran : Machine} {outer : List Nat} (wf : m.thread.WellFormed)
    (frames : ran.frames = m.frames) (kept : m.operands <+: ran.operands)
    (h : dropTo m.thread.operandDepth s (ran.withDepths outer) = .ok () m') :
    m'.operands = m.operands := by
  have base : (ran.withDepths outer).thread.stackBase = m.thread.stackBase :=
    (Thread.stackBase_eq_floor frames).trans (Thread.stackBase_eq_floor rfl).symm
  have reached := wf.base_le
  cases h
  simp only [Machine.operands, Thread.truncate, Operand.toList_take]
  rw [base, Thread.operandDepth, ← Array.length_toList, Nat.add_sub_cancel' reached]
  exact (List.prefix_iff_eq_take.mp kept).symm

/-- Concluding a call takes its result off the operands of the caller, or drops what it has left
there. -/
theorem conclude_restores {ran : Machine} {outer : List Nat} {o : RunOutcome} {i : Invocation}
    (wf : m.thread.WellFormed) (frames : ran.frames = m.frames) (ended : o ≠ .halted)
    (completed : o = .completed → ∃ result, ran.operands = m.operands ++ result ∧
      result.length = if decl.type.result = .void then 0 else 1)
    (kept : m.operands <+: ran.operands)
    (h : conclude decl m.thread.operandDepth o s (ran.withDepths outer) = .ok i m') :
    m'.operands = m.operands := by
  cases conclude_cases h with
  | halted => exact absurd rfl ended
  | threw _ dropped => exact dropTo_restores wf frames kept dropped
  | void void =>
      obtain ⟨result, operands, length⟩ := completed rfl
      rw [if_pos void, List.length_eq_zero_iff] at length
      rw [length, List.append_nil] at operands
      exact operands
  | value value popped =>
      obtain ⟨result, operands, length⟩ := completed rfl
      obtain ⟨o, mid', popped, h⟩ := bind_eq_ok popped
      cases h
      rw [if_neg value, List.length_eq_one_iff] at length
      obtain ⟨x, rfl⟩ := length
      have split : ran.operands = m'.operands ++ [o] := (popOperand_took popped).split
      have same := operands.symm.trans split
      exact (List.append_inj' same rfl).1.symm

end Exec

/-! ## The natives that the machine brings along -/

theorem Natives.mem_of_find? {ns : Natives} {signature : String} {native : NativeFn}
    (h : ns.find? signature = some native) : (signature, native) ∈ ns := by
  obtain ⟨a, b, split, -⟩ := List.lookup_eq_some_iff.mp h
  rw [split]
  simp

/-- They work on the operands, and they may raise an exception. -/
theorem coreNatives_keeps {R : Machine → Machine → Prop} [AllowsOperands R] [AllowsRaise R]
    (r : Reentry) {signature : String} {native : NativeFn}
    (found : coreNatives.find? signature = some native) : Exec.Keeps R (native r) := by
  have listed := Natives.mem_of_find? found
  simp only [coreNatives, List.mem_cons, Prod.mk.injEq, List.not_mem_nil, or_false] at listed
  obtain ⟨-, rfl⟩ | ⟨-, rfl⟩ | ⟨-, rfl⟩ | ⟨-, rfl⟩ := listed
  · exact Exec.hashCode_keeps
  · exact Exec.getName_keeps
  · exact Exec.arrayCopy_keeps
  · exact Exec.reportUncaught_keeps

/-- They call no method, so they keep every discipline. -/
theorem coreNatives_keep (d : Discipline) (r : Reentry) : coreNatives.Keep d r :=
  fun _ _ found => .of_sameFrames (coreNatives_keeps r found) fun _ _ _ _ _ _ => trivial

theorem MethodDecl.TakesUncaught.native {decl : MethodDecl} (takes : decl.TakesUncaught)
    {native : NativeFn} (found : coreNatives.find? decl.signature = some native) :
    native = fun _ => Exec.reportUncaught := by
  have listed := Natives.mem_of_find? found
  have name : decl.name = Exec.uncaughtHandler.1 := congrArg Prod.fst takes.1
  have descriptor : decl.descriptor = Exec.uncaughtHandler.2 := congrArg Prod.snd takes.1
  -- the signatures of the other natives do not end in the name and the descriptor
  have ends : (Exec.uncaughtHandler.1 ++ Exec.uncaughtHandler.2).toList <:+
      decl.signature.toList := by
    rw [MethodDecl.signature, name, descriptor]
    refine ⟨decl.className.toList ++ ['.'], ?_⟩
    simp [toString, String.toList_append]
  simp only [coreNatives, List.mem_cons, Prod.mk.injEq, List.not_mem_nil, or_false] at listed
  obtain ⟨same, -⟩ | ⟨same, -⟩ | ⟨same, -⟩ | ⟨-, rfl⟩ := listed
  · rw [same] at ends
    exact absurd ends (by decide)
  · rw [same] at ends
    exact absurd ends (by decide)
  · rw [same] at ends
    exact absurd ends (by decide)
  · rfl


theorem MethodDecl.TakesUncaught.void {decl : MethodDecl} (takes : decl.TakesUncaught) :
    decl.type.result = .void := by
  have typed := decl.typed
  rw [show decl.descriptor = Exec.uncaughtHandler.2 from congrArg Prod.snd takes.1] at typed
  have parsed : (MethodType.parse Exec.uncaughtHandler.2).map MethodType.result = .ok .void := by
    decide
  rw [typed] at parsed
  exact Except.ok.inj parsed

theorem Exec.reportUncaught_took {s : Settings} {m m' : Machine}
    (h : reportUncaught s m = .ok () m') :
    ∃ taken, taken.length = 3 ∧ m.operands = m'.operands ++ taken := by
  obtain ⟨_, m₁, first, h⟩ := bind_eq_ok h
  obtain ⟨throwable, mid, asked, h⟩ := bind_eq_ok h
  rw [← (Keeps.ofExcept (R := Eq) _).of_ok asked] at h
  obtain ⟨_, m₂, second, h⟩ := bind_eq_ok h
  obtain ⟨_, m₃, third, h⟩ := bind_eq_ok h
  obtain ⟨_, second, -⟩ := map_eq_ok second
  obtain ⟨_, third, -⟩ := map_eq_ok third
  obtain ⟨a, -, first⟩ := pop_took first
  obtain ⟨b, -, second⟩ := pop_took second
  obtain ⟨c, -, third⟩ := pop_took third
  have sameThread : m₃.SameThread m' := by
    cases throwable with
    | none => exact (report_keeps _).of_ok h
    | some exception =>
        obtain ⟨_, m₄, opened, h⟩ := bind_eq_ok h
        obtain ⟨_, m₅, found, h⟩ := bind_eq_ok h
        exact IsTrans.trans _ _ _ (heap_keeps.of_ok opened)
          (IsTrans.trans _ _ _ ((Keeps.ofExcept _).of_ok found) ((report_keeps _).of_ok h))
  refine ⟨[c] ++ ([b] ++ [a]), rfl, ?_⟩
  rw [sameThread.sameStacks.operands]
  exact (first.trans (second.trans third)).split

/-- The native of a method that takes uncaught exceptions replaces its arguments by nothing. -/
theorem coreNatives_serves {decl : MethodDecl} (takes : decl.TakesUncaught) (r : Reentry) :
    coreNatives.Serves decl r := by
  intro native found s m m' ran _ _ _ _ _
  rw [takes.native found] at ran
  obtain ⟨taken, three, split⟩ := Exec.reportUncaught_took ran
  have rest : m.operands.take (m.operands.length - decl.argCount) = m'.operands := by
    rw [takes.2, split, List.length_append, three, Nat.add_sub_cancel, List.take_left]
  rw [rest, if_pos takes.void]
  exact ⟨fun _ => ⟨[], (List.append_nil _).symm, rfl⟩, List.prefix_rfl⟩


namespace Engine

open Exec

/-- Within a budget, every call of a method whose native serves it leaves the operands of its
caller as they were, unless the machine is halted or a run was left without its value. -/
def Restores (natives : Natives) (n : Nat) : Prop :=
  ∀ {cls : LoadedClass} {decl : MethodDecl} {args : List Value} {s : Settings} {m m' : Machine}
    {i : Invocation}, (∀ k, natives.Serves decl (reentry natives k)) → m.thread.WellFormed →
    m.thread.pending = none → (reentry natives n).call cls decl args s m = .ok i m' →
    m'.world.halted = false → m'.thread.bare = false → m'.operands = m.operands

theorem call_argCount {natives : Natives} {n : Nat} {cls : LoadedClass} {decl : MethodDecl}
    {args : List Value} {s : Settings} {m m' : Machine} {i : Invocation}
    (h : (reentry natives n).call cls decl args s m = .ok i m') : args.length = decl.argCount := by
  obtain ⟨k, -, h⟩ := reentry_call_ok h
  exact (execute_ok h).1

section Strict

variable {natives : Natives} (hn : ∀ n, natives.Keep .strict (reentry natives n))
  (handlers : ∀ n decl, decl.TakesUncaught → natives.Serves decl (reentry natives n))

include handlers

theorem deliverUncaught_restores {n : Nat} (restores : Restores natives n) {exception : Handle}
    {s : Settings} {m m' : Machine} {o : RunOutcome} (wf : m.thread.WellFormed)
    (h : deliverUncaught (host natives n) exception s m = .ok o m')
    (unhalted : m'.world.halted = false) (full : m'.thread.bare = false) :
    m'.operands = m.operands := by
  obtain sameStacks | ⟨a, cls, handler, args, i, b, before, clear, named, three, called, after⟩ :=
    deliverUncaught_split h
  · exact sameStacks.operands
  · have takes : handler.TakesUncaught := ⟨named, (call_argCount called).symm.trans three⟩
    have same := restores (fun k => handlers k handler takes)
      (before.sameFrames.wellFormed wf) clear
      called (Machine.running_before after.halted unhalted) (after.bare.symm.trans full)
    rw [after.operands, same, before.operands]

include hn

theorem ended_restores {n : Nat} (restores : Restores natives n) {decl : MethodDecl}
    {s : Settings} {low : List Frame} {kept : List Operand} {outer : List Nat} {m : Machine}
    {o : RunOutcome} (h : Ended .strict (host natives n) s low kept outer decl o m)
    (unhalted : m.world.halted = false) (full : m.thread.bare = false) :
    o ≠ .halted ∧ (o = .completed → ∃ result, m.operands = kept ++ result ∧
      result.length = if decl.type.result = .void then 0 else 1) ∧ kept <+: m.operands := by
  cases h with
  | halted _ _ halted => rw [halted] at unhalted; cases unhalted
  | @completed _ own v left value =>
      obtain ⟨empty, operands⟩ := left.emptied unhalted
      refine ⟨by simp, fun _ => ⟨_, operands, ?_⟩, by rw [operands]; exact List.prefix_append _ _⟩
      have value := value rfl empty full
      rw [List.length_map]
      split
      next void => cases v with
        | none => rfl
        | some v => exact absurd void (value.mp rfl)
      next nonvoid => cases v with
        | none => exact absurd (value.mpr nonvoid) (by simp)
        | some v => rfl
  | pending left =>
      obtain ⟨-, operands⟩ := left.emptied unhalted
      exact ⟨by simp, by simp, by rw [operands]; exact List.prefix_append _ _⟩
  | @uncaught c _ own e _ wf left delivered =>
      have upkeep : c.Upkeep s.config.maxFrames m :=
        after_of_ok delivered ▸ deliverUncaught_upkeep (upholds hn n) e
      obtain ⟨-, operands⟩ := left.emptied (Machine.running_before upkeep.halted unhalted)
      have same := deliverUncaught_restores handlers restores wf delivered unhalted full
      rw [deliverUncaught_ok delivered]
      exact ⟨by simp, by simp, by rw [same, operands]; exact List.prefix_append _ _⟩

omit handlers in
/-- The call has left no frame on top of those of the caller. -/
theorem ran_frames {n : Nat} {cls : LoadedClass} {decl : MethodDecl} {args : List Value}
    {events : Array Event} {s : Settings} {m ran : Machine} {o : RunOutcome}
    (wf : m.thread.WellFormed) (clear : m.thread.pending = none)
    (count : args.length = decl.argCount)
    (h : Ran (host natives n) cls decl s (m.prepared args events) o ran)
    (unhalted : ran.world.halted = false) : ran.frames = m.frames := by
  have ready : Discipline.strict.Ready m := fun _ => clear
  obtain ⟨own, spared, -⟩ := h.spared (.inr rfl) (hn n) (spares (.inr rfl) hn n) (upholds hn n) wf
    (Nat.zero_le _) ready count
  have empty : own = [] := List.length_eq_zero_iff.mp (spared.exact rfl unhalted)
  rw [spared.frames, empty, List.nil_append, drop_slack rfl]

omit hn handlers in
/-- A call without a frame either raises an exception or is the native's, which replaces the
arguments by its result. -/
theorem invoke_restores {n : Nat} {cls : LoadedClass} {decl : MethodDecl} {args : List Value}
    {events : Array Event} {s : Settings} {m last : Machine}
    (serves : natives.Serves decl (reentry natives n)) (wf : m.thread.WellFormed)
    (clear : m.thread.pending = none) (count : args.length = decl.argCount)
    (invoked : invoke (host natives n) cls decl s (m.prepared args events) = .ok false last)
    (unhalted : last.world.halted = false) (full : last.thread.bare = false) :
    (last.thread.pending = none → ∃ result, last.operands = m.operands ++ result ∧
      result.length = if decl.type.result = .void then 0 else 1) ∧
    m.operands <+: last.operands := by
  obtain ⟨sameStacks, raised⟩ | ⟨native, a, b, found, before, ran, after⟩ := invoke_over invoked
  · refine ⟨fun none => absurd none raised, ?_⟩
    rw [sameStacks.operands, prepared_operands]
    exact List.prefix_append _ _
  · have same : a.operands = (m.prepared args events).operands := before.sameStacks.operands
    have enough : decl.argCount ≤ a.thread.operandDepth := by
      have reached : m.thread.stackBase ≤ m.operands.length := wf.base_le
      rw [before.thread, Thread.operandDepth, ← Array.length_toList,
        show (m.prepared args events).thread.operands.toList = _ from prepared_operands, List.length_append,
        List.length_map, count]
      have base : (m.prepared args events).thread.stackBase = m.thread.stackBase := rfl
      omega
    have wf' := before.sameStacks.sameFrames.wellFormed (prepared_wellFormed wf)
    obtain ⟨returned, kept⟩ := serves native found s a b ran wf'
      (by rw [before.thread]; exact clear) enough
      (Machine.running_before after.halted unhalted) (by rw [← after.thread]; exact full)
    have taken : (m.prepared args events).operands.take
        ((m.prepared args events).operands.length - decl.argCount) = m.operands := prepared_take count
    rw [same, taken] at returned kept
    rw [Machine.operands, after.thread]
    exact ⟨returned, kept⟩

/-- The frames a call has entered leave its result on top of the operands of the caller, or an
exception is its outcome. -/
theorem run_restores {n : Nat} (restores : ∀ k ≤ n, Restores natives k) {cls : LoadedClass}
    {decl : MethodDecl} {args : List Value} {events : Array Event} {s : Settings}
    {m mid ran : Machine} {o : RunOutcome} (wf : m.thread.WellFormed)
    (clear : m.thread.pending = none) (count : args.length = decl.argCount)
    (entered : invoke (host natives n) cls decl s (m.prepared args events) = .ok true mid)
    (looped : (reentry natives n).run s mid = .ok o ran)
    (unhalted : ran.world.halted = false) (full : ran.thread.bare = false) :
    o ≠ .halted ∧ (o = .completed → ∃ result, ran.operands = m.operands ++ result ∧
      result.length = if decl.type.result = .void then 0 else 1) ∧ m.operands <+: ran.operands := by
  have ready : Discipline.strict.Ready (m.prepared args events) := fun _ => clear
  have invoked := invoke_ok (hn n) ready entered
  obtain ⟨kept, own, running, -, ground⟩ :=
    entered_running (d := .strict) (Nat.zero_le _) count invoked
  obtain ⟨rfl, grounded⟩ := ground rfl
  have entering : (m.prepared args events).Upkeep s.config.maxFrames mid :=
    after_of_ok entered ▸ invoke_upkeep (hn n) (upholds hn n) ready cls decl
  have wf' := entering.wellFormed (prepared_wellFormed wf)
  have ready' := invoke_ready (hn n) ready entered
  obtain ⟨k, rfl, looped⟩ := reentry_run_ok looped
  obtain ⟨last, ended, rfl⟩ := runLoop_ended (.inr rfl) (hn k) (settles natives k)
    (spares (.inr rfl) hn k) (upholds hn k) ready' wf' running (fun _ => grounded) looped
  exact ended_restores hn handlers (m := last) (restores k (Nat.le_succ k)) ended unhalted full

/-- A call that is over has left its result on top of the operands of the caller, or an exception
is its outcome. -/
theorem ran_restores {n : Nat} (restores : ∀ k ≤ n, Restores natives k) {cls : LoadedClass}
    {decl : MethodDecl} {args : List Value} {events : Array Event} {s : Settings}
    {m ran : Machine} {o : RunOutcome} (serves : ∀ k, natives.Serves decl (reentry natives k))
    (wf : m.thread.WellFormed) (clear : m.thread.pending = none)
    (count : args.length = decl.argCount)
    (h : Ran (host natives n) cls decl s (m.prepared args events) o ran)
    (unhalted : ran.world.halted = false) (full : ran.thread.bare = false) :
    o ≠ .halted ∧ (o = .completed → ∃ result, ran.operands = m.operands ++ result ∧
      result.length = if decl.type.result = .void then 0 else 1) ∧ m.operands <+: ran.operands := by
  cases h with
  | run entered looped =>
      exact run_restores hn handlers restores wf clear count entered looped unhalted full
  | done invoked pending =>
      obtain ⟨returned, kept⟩ := invoke_restores (serves n) wf clear count invoked unhalted full
      exact ⟨by simp, fun _ => returned pending, kept⟩
  | threw invoked _ _ =>
      obtain ⟨-, kept⟩ := invoke_restores (serves n) wf clear count invoked unhalted full
      exact ⟨by simp, by simp, kept⟩
  | @uncaught mid _ e o invoked _ _ delivered =>
      have ready : Discipline.strict.Ready (m.prepared args events) := fun _ => clear
      have invoking : (m.prepared args events).Upkeep s.config.maxFrames mid :=
        after_of_ok invoked ▸ invoke_upkeep (hn n) (upholds hn n) ready cls decl
      have wf' := invoking.wellFormed (prepared_wellFormed wf)
      have delivering : mid.Upkeep s.config.maxFrames ran :=
        after_of_ok delivered ▸ deliverUncaught_upkeep (upholds hn n) e
      have before : mid.thread.bare = false :=
        Bool.eq_false_iff.mpr fun bare => Bool.eq_false_iff.mp full (delivering.bare bare)
      obtain ⟨-, kept⟩ := invoke_restores (serves n) wf clear count invoked
        (Machine.running_before delivering.halted unhalted) before
      have same := deliverUncaught_restores handlers (restores n (Nat.le_refl n)) wf' delivered
        unhalted full
      rw [deliverUncaught_ok delivered, same]
      exact ⟨by simp, by simp, kept⟩

theorem restores (n : Nat) : Restores natives n := by
  induction n using Nat.strong_induction_on with
  | h n ih =>
      intro cls decl args s m m' i serves wf clear called unhalted full
      obtain ⟨n, rfl, called⟩ := reentry_call_ok called
      obtain ⟨count, events, outcome, ran, k, outer, ran', -, concluded⟩ := execute_ok called
      have sameFrames : (ran.withDepths outer).SameFrames m' :=
        (conclude_keeps _ _ _).of_ok concluded
      have unhalted' : ran.world.halted = false :=
        Machine.running_before (m := ran) sameFrames.halted unhalted
      have full' : ran.thread.bare = false := sameFrames.bare.symm.trans full
      obtain ⟨ended, completed, kept⟩ := ran_restores hn handlers
        (fun k le => ih k (Nat.lt_succ_of_le le)) serves wf clear count ran' unhalted' full'
      exact conclude_restores wf (ran_frames hn wf clear count ran' unhalted') ended completed kept
        concluded

/-- A call is balanced.

When it returns or ends in an exception, the frames, the operands with their tags, the counters and
the level are those of the caller.  When it is halted or stops in a fault, the counters and the
level still are.  However it ends, the frames of the caller are the lowest ones of the thread, and
the thread has never had more frames on the way than the limit allows, unless the caller had them
already. -/
theorem call_balanced {n : Nat} {cls : LoadedClass} {decl : MethodDecl} {args : List Value}
    {s : Settings} {m : Machine} (serves : ∀ k, natives.Serves decl (reentry natives k))
    (wf : m.thread.WellFormed) (clear : m.thread.pending = none) :
    (∀ i m', call natives n cls decl args s m = .ok i m' → m'.world.halted = false →
      m'.thread.bare = false →
      m'.frames = m.frames ∧ m'.operands = m.operands ∧ m'.thread.depths = m.thread.depths ∧
        m'.thread.level = m.thread.level) ∧
    (∀ m', (∃ i, call natives n cls decl args s m = .ok i m') ∨
        (∃ e, call natives n cls decl args s m = .error (.fault e) m') →
      m'.thread.depths = m.thread.depths ∧ m'.thread.level = m.thread.level) ∧
    m.frames <:+ ((call natives n cls decl args).after s m).frames ∧
    (m.thread.deepest = m.frames.length →
      ((call natives n cls decl args).after s m).thread.deepest ≤
        max s.config.maxFrames m.frames.length) := by
  have ready : Discipline.strict.Ready m := fun _ => clear
  have spares := spares (d := .strict) (.inr rfl) hn n
  have upkeep : m.Upkeep s.config.maxFrames ((call natives n cls decl args).after s m) :=
    (upholds hn n).call cls decl args s m ready
  refine ⟨fun i m' called unhalted full => ?_, fun m' ended => ?_, ?_, fun mark => ?_⟩
  · obtain ⟨own, spared, depths, level, -⟩ := spares.call wf (Nat.zero_le _) ready called
    have empty : own = [] := List.length_eq_zero_iff.mp (spared.exact rfl unhalted)
    have frames : m'.frames = m.frames := by
      rw [spared.frames, empty, List.nil_append, drop_slack rfl]
    exact ⟨frames, restores hn handlers n serves wf clear called unhalted full, depths, level⟩
  · obtain ⟨i, called⟩ | ⟨e, stopped⟩ := ended
    · obtain ⟨own, -, depths, level, -⟩ := spares.call wf (Nat.zero_le _) ready called
      exact ⟨depths, level⟩
    · obtain ⟨own, -, closed⟩ := spares.callStop wf (Nat.zero_le _) ready stopped
      exact closed ⟨e, rfl⟩
  · cases run : call natives n cls decl args s m with
    | ok i m' =>
        obtain ⟨own, spared, -⟩ := spares.call wf (Nat.zero_le _) ready run
        rw [after_of_ok run, spared.frames, drop_slack rfl]
        exact List.suffix_append own _
    | error stop m' =>
        obtain ⟨own, above, -⟩ := spares.callStop wf (Nat.zero_le _) ready run
        rw [after_of_error run, above.frames, drop_slack rfl]
        exact List.suffix_append own _
  · rw [Nat.max_comm, ← mark]
    exact upkeep.deepest wf

end Strict

/-- A method that only returns is called from a frame with an operand. -/
theorem call_balanced_return : ∃ m',
    call coreNatives 3 Sample.cls (Sample.method [0xb1] []) [] {} Sample.caller =
      .ok (.returned none) m' ∧
    m'.frames = Sample.caller.frames ∧ m'.operands = Sample.caller.operands := by
  have unserved (k : Nat) :
      coreNatives.Serves (Sample.method [0xb1] []) (reentry coreNatives k) := by
    intro native found
    have none : coreNatives.find? (Sample.method [0xb1] []).signature = none := by rfl
    rw [none] at found
    cases found
  obtain ⟨m', run, unhalted, full⟩ : ∃ m',
      call coreNatives 3 Sample.cls (Sample.method [0xb1] []) [] {} Sample.caller =
        .ok (.returned none) m' ∧ m'.world.halted = false ∧ m'.thread.bare = false :=
    ⟨_, by rfl, by rfl, by rfl⟩
  obtain ⟨balanced, -⟩ := call_balanced (n := 3) (fun k => coreNatives_keep .strict _)
    (fun k _ takes => coreNatives_serves takes _) unserved Sample.caller_wellFormed rfl
  obtain ⟨frames, operands, -⟩ := balanced _ m' run unhalted full
  exact ⟨m', run, frames, operands⟩

/-- While an exception is pending, the same call is not balanced: the method returns, its run has
no frame left, and then the frame of the caller is searched for a handler and left. -/
theorem call_unbalanced_pending :
    (Sample.machine [Sample.frame [0xb1] [] 0] #[] [1]).thread.WellFormed ∧
    ¬ (Sample.machine [Sample.frame [0xb1] [] 0] #[] [1]).frames <:+
      ((call coreNatives 3 Sample.cls (Sample.method [0xb1] []) []).after {}
        (Sample.machine [Sample.frame [0xb1] [] 0] #[] [1])).frames := by
  refine ⟨⟨by simp [Sample.machine], by simp [Sample.machine, Sample.frame],
    by simp [Sample.machine, Sample.frame], Nat.le_refl 1⟩, ?_⟩
  have left : ((call coreNatives 3 Sample.cls (Sample.method [0xb1] []) []).after {}
      (Sample.machine [Sample.frame [0xb1] [] 0] #[] [1])).frames = [] := by rfl
  rw [left]
  simp [Sample.machine]

end Engine

end JavaMachine
