import JavaMachine.Proofs.Instructions

/-!
# What instructions and natives are made of

An instruction that calls methods does not stay in its frame.  It may enter a frame, and it may
call back into the machine: for the initialiser of a class, and for whatever a native calls.  This
module takes such an instruction apart into moves.  A move works within the current frame, enters
a frame and counts it, or is a whole call.  What a move does to the stacks is then said once for
each kind of move, and holds of every instruction.

A native is host code, of which nothing is known but how it acts on the machine: it works on the
operands of its caller, and it calls methods.  A `Discipline` says more about its calls: whether
it calls only while no exception is pending, and whether it passes on the faults that its calls
end in.

`Along` is the triple that carries this.  From a machine with a precondition, a computation that
has a result comes to it step by step, and a computation that stops does so at the end of some
steps, in one of the ways in which a computation of this kind can stop.

How a method comes to be called is taken apart once, by `invoke_cases` and, for natives, by
`invokeNative_cases`; what a call keeps, changes or accounts for is read off these cases later.
-/

namespace JavaMachine

open Relation (ReflTransGen)

/-! ## Computations that go in steps -/

/-- Steps that a computation may take, and ways in which it may stop. -/
structure Ways where
  /-- A step. -/
  step : Settings → Machine → Machine → Prop
  /-- A way to stop. -/
  stop : Settings → Stop → Machine → Machine → Prop

namespace Exec

variable {α β : Type} {x : Exec α} {f : α → Exec β} {w : Ways} {P P' : Machine → Prop}
  {Q Q' : α → Machine → Prop}

/-- From a machine with a precondition, a computation goes in steps.  A result has the
postcondition. -/
def Along (w : Ways) (P : Machine → Prop) (x : Exec α) (Q : α → Machine → Prop) : Prop :=
  ∀ s m, P m →
    (∀ a m', x s m = .ok a m' → ReflTransGen (w.step s) m m' ∧ Q a m') ∧
    (∀ stop m', x s m = .error stop m' →
      ∃ mid, ReflTransGen (w.step s) m mid ∧ w.stop s stop mid m')

namespace Along

theorem of_ok {s : Settings} {m m' : Machine} {a : α} (hx : Along w P x Q) (hm : P m)
    (h : x s m = .ok a m') : ReflTransGen (w.step s) m m' ∧ Q a m' := (hx s m hm).1 a m' h

theorem of_error {s : Settings} {m m' : Machine} {stop : Stop} (hx : Along w P x Q) (hm : P m)
    (h : x s m = .error stop m') :
    ∃ mid, ReflTransGen (w.step s) m mid ∧ w.stop s stop mid m' := (hx s m hm).2 stop m' h

theorem pure (a : α) (h : ∀ m, P m → Q a m) : Along w P (Pure.pure a : Exec α) Q := by
  refine fun s m hm => ⟨fun b m' h' => ?_, fun stop m' h' => ?_⟩
  · cases h'
    exact ⟨.refl, h m hm⟩
  · cases h'

theorem bind {R : β → Machine → Prop} (hx : Along w P x Q) (hf : ∀ a, Along w (Q a) (f a) R) :
    Along w P (x >>= f) R := by
  refine fun s m hm => ⟨fun b m' h => ?_, fun stop m' h => ?_⟩
  · obtain ⟨a, mid, first, second⟩ := bind_eq_ok h
    obtain ⟨steps, hmid⟩ := hx.of_ok hm first
    obtain ⟨steps', hb⟩ := (hf a).of_ok hmid second
    exact ⟨steps.trans steps', hb⟩
  · obtain first | ⟨a, mid, first, second⟩ := bind_eq_error h
    · exact hx.of_error hm first
    · obtain ⟨steps, hmid⟩ := hx.of_ok hm first
      obtain ⟨mid', steps', stops⟩ := (hf a).of_error hmid second
      exact ⟨mid', steps.trans steps', stops⟩

theorem discard (hx : Along w P x fun _ _ => True) :
    Along w P (Functor.discard x) fun _ _ => True := by
  have run : Functor.discard x = x >>= fun _ => Pure.pure () := rfl
  rw [run]
  exact hx.bind fun _ => .pure () fun _ _ => trivial

theorem weaken (hx : Along w P x Q) (hP : ∀ m, P' m → P m) (hQ : ∀ a m, Q a m → Q' a m) :
    Along w P' x Q' := by
  refine fun s m hm => ⟨fun a m' h => ?_, fun stop m' h => hx.of_error (hP m hm) h⟩
  obtain ⟨steps, ha⟩ := hx.of_ok (hP m hm) h
  exact ⟨steps, hQ a m' ha⟩

/-- A computation that keeps a relation is one step, if the relation is a step and a way to
stop. -/
theorem of_keeps {R : Machine → Machine → Prop} (hx : Keeps R x)
    (hstep : ∀ s m m', R m m' → w.step s m m')
    (hstop : ∀ s stop m m', R m m' → w.stop s stop m m')
    (hQ : ∀ s m a m', P m → x s m = .ok a m' → Q a m') : Along w P x Q :=
  fun s m hm =>
    ⟨fun a m' h => ⟨.single (hstep s m m' (hx.of_ok h)), hQ s m a m' hm h⟩,
      fun stop m' h => ⟨m, .refl, hstop s stop m m' (hx.of_error h)⟩⟩

theorem mono {w' : Ways} (hx : Along w P x Q) (hstep : ∀ s m m', w.step s m m' → w'.step s m m')
    (hstop : ∀ s stop m m', w.stop s stop m m' → w'.stop s stop m m') : Along w' P x Q := by
  refine fun s m hm => ⟨fun a m' h => ?_, fun stop m' h => ?_⟩
  · obtain ⟨steps, ha⟩ := hx.of_ok hm h
    exact ⟨ReflTransGen.mono (hstep s) _ _ steps, ha⟩
  · obtain ⟨mid, steps, stops⟩ := hx.of_error hm h
    exact ⟨mid, ReflTransGen.mono (hstep s) _ _ steps, hstop s stop mid m' stops⟩

/-- A computation that is tidied up after, also when it stops in a fault.  Tidying up keeps a
relation and has always a result. -/
theorem tidied {R : Machine → Machine → Prop} {rest : Except Fault α → Exec α}
    (hx : Along w P x Q) (hrest : ∀ r s m, ∃ m', R m m' ∧ rest r s m = ofExcept r s m')
    (hstep : ∀ s m m', R m m' → w.step s m m')
    (hstop : ∀ s stop m mid m', w.stop s stop m mid → R mid m' → w.stop s stop m m')
    (hQ : ∀ a m m', Q a m → R m m' → Q a m') : Along w P (attempt x >>= rest) Q := by
  refine fun s m hm => ⟨fun a m' h => ?_, fun stop m' h => ?_⟩
  · cases first : x s m with
    | ok b mid =>
        obtain ⟨steps, hb⟩ := hx.of_ok hm first
        obtain ⟨last, sameThread, second⟩ := hrest (.ok b) s mid
        rw [bind_of_ok (attempt_of_ok first), second] at h
        cases h
        exact ⟨steps.tail (hstep s mid _ sameThread), hQ a mid _ hb sameThread⟩
    | error stop mid =>
        cases stop with
        | fault e =>
            obtain ⟨last, -, second⟩ := hrest (.error e) s mid
            rw [bind_of_ok (attempt_of_fault first), second] at h
            cases h
        | blocked => rw [bind_of_error (attempt_of_stop first (by simp))] at h; cases h
        | exhausted => rw [bind_of_error (attempt_of_stop first (by simp))] at h; cases h
  · cases first : x s m with
    | ok b mid =>
        obtain ⟨last, -, second⟩ := hrest (.ok b) s mid
        rw [bind_of_ok (attempt_of_ok first), second] at h
        cases h
    | error stop' mid =>
        obtain ⟨before, steps, stops⟩ := hx.of_error hm first
        cases stop' with
        | fault e =>
            obtain ⟨last, sameThread, second⟩ := hrest (.error e) s mid
            rw [bind_of_ok (attempt_of_fault first), second] at h
            cases h
            exact ⟨before, steps, hstop s _ before mid _ stops sameThread⟩
        | blocked =>
            rw [bind_of_error (attempt_of_stop first (by simp))] at h
            cases h
            exact ⟨before, steps, stops⟩
        | exhausted =>
            rw [bind_of_error (attempt_of_stop first (by simp))] at h
            cases h
            exact ⟨before, steps, stops⟩

end Along

end Exec

/-! ## Acts of natives -/

/-- How the natives of a machine call methods. -/
structure Discipline where
  /-- They do so only while no exception is pending. -/
  clear : Bool
  /-- They pass on the faults that their calls end in. -/
  passes : Bool

namespace Discipline

/-- Natives that call methods as they like. -/
abbrev free : Discipline := ⟨false, false⟩

/-- Natives that pass on faults. -/
abbrev passing : Discipline := ⟨false, true⟩

/-- Natives that pass on faults, and that call methods only while no exception is pending. -/
abbrev strict : Discipline := ⟨true, true⟩

end Discipline

/-- The machine is in a state in which a method may be called. -/
def Discipline.Ready (d : Discipline) (m : Machine) : Prop :=
  d.clear = true → m.thread.pending = none

/-- What a native does to a machine: it works on the operands, or it calls a method.  A native that
need not pass on faults may also go on after a call that ended in one. -/
inductive Act (d : Discipline) (r : Reentry) (s : Settings) : Machine → Machine → Prop
  | work {m m' : Machine} : m.SameFrames m' → Act d r s m m'
  | call {m m' : Machine} {cls : LoadedClass} {decl : MethodDecl} {args : List Value}
      {i : Invocation} : d.Ready m → r.call cls decl args s m = .ok i m' → Act d r s m m'
  | caught {m m' : Machine} {cls : LoadedClass} {decl : MethodDecl} {args : List Value}
      {e : Fault} : d.passes = false → d.Ready m →
      r.call cls decl args s m = .error (.fault e) m' → Act d r s m m'

/-- How a native stops: by itself, or because a call stopped. -/
inductive ActStop (d : Discipline) (r : Reentry) (s : Settings) (stop : Stop) :
    Machine → Machine → Prop
  | own {m m' : Machine} : m.SameFrames m' → ActStop d r s stop m m'
  | called {m mid m' : Machine} {cls : LoadedClass} {decl : MethodDecl} {args : List Value} :
      d.Ready m → r.call cls decl args s m = .error stop mid → mid.SameThread m' →
      ActStop d r s stop m m'

theorem ActStop.tidied {d : Discipline} {r : Reentry} {s : Settings} {stop : Stop}
    {m mid m' : Machine} (h : ActStop d r s stop m mid) (sameThread : mid.SameThread m') :
    ActStop d r s stop m m' := by
  cases h with
  | own sameFrames => exact .own (IsTrans.trans _ _ _ sameFrames sameThread.sameFrames)
  | called ready stopped before =>
      exact .called ready stopped (IsTrans.trans _ _ _ before sameThread)

/-- The ways of a native. -/
def acts (d : Discipline) (r : Reentry) : Ways := ⟨Act d r, ActStop d r⟩

/-- The natives of a machine keep a discipline towards the ways back into it: whenever one of them
is run, all it does is to act. -/
def Natives.Keep (ns : Natives) (d : Discipline) (r : Reentry) : Prop :=
  ∀ signature native, ns.find? signature = some native →
    Exec.Along (acts d r) d.Ready (native r) fun _ _ => True

/-! ## Moves of instructions -/

/-- A frame is put on top of the others, and its operands begin where those of the frame below
end. -/
structure Pushes (f : Frame) (m m' : Machine) : Prop where
  /-- The frame is on top. -/
  frames : m'.frames = f :: m.frames
  /-- The operands are the same. -/
  operands : m'.operands = m.operands
  /-- None of them belongs to the frame. -/
  base : f.stackBase = m.operands.length
  /-- The next byte is not behind the end of the code. -/
  pc : f.pc ≤ f.codeLength
  /-- Longs and doubles among the local variables have their second slots. -/
  paired : f.Paired
  /-- The depth counters are the same. -/
  depths : m'.thread.depths = m.thread.depths
  /-- As many runs are in progress. -/
  level : m'.thread.level = m.thread.level
  /-- The largest number of frames takes the new frame into account. -/
  deepest : m'.thread.deepest = max m.thread.deepest (m.frames.length + 1)
  /-- No run was left without its value. -/
  bare : m'.thread.bare = m.thread.bare
  /-- A halted machine stays halted. -/
  halted : m.world.halted = true → m'.world.halted = true

theorem Pushes.of_pushFrame {f : Frame} {m : Machine} (base : f.stackBase = m.operands.length)
    (pc : f.pc ≤ f.codeLength) (paired : f.Paired) :
    Pushes f m { m with thread := m.thread.pushFrame f } :=
  ⟨rfl, rfl, base, pc, paired, rfl, rfl, rfl, rfl, id⟩

/-- A frame is entered: it is put on top and counted. -/
structure Enters (f : Frame) (m m' : Machine) : Prop where
  /-- The frame is put on top, and then the counters change. -/
  pushes : ∃ mid, Pushes f m mid ∧
    m' = { mid with thread := { mid.thread with depths := m'.thread.depths } }
  /-- The innermost counter counts it. -/
  counted : ∃ n rest, m.thread.depths = n :: rest ∧ m'.thread.depths = (n + 1) :: rest

/-- What an instruction does to a machine: it works within the current frame, it enters a frame if
there is room for one, or it acts as a native does. -/
inductive Move (d : Discipline) (r : Reentry) (s : Settings) : Machine → Machine → Prop
  | within {m m' : Machine} : m.Within m' → Move d r s m m'
  | enter {m m' : Machine} {f : Frame} : m.frames.length < s.config.maxFrames → Enters f m m' →
      Move d r s m m'
  | act {m m' : Machine} : Act d r s m m' → Move d r s m m'

/-- How an instruction stops: within the current frame, after it has put a frame on top that it
could not count, or as a native does. -/
inductive MoveStop (d : Discipline) (r : Reentry) (s : Settings) (stop : Stop) :
    Machine → Machine → Prop
  | within {m m' : Machine} : m.Within m' → MoveStop d r s stop m m'
  | pushed {m m' : Machine} {f : Frame} : m.frames.length < s.config.maxFrames → Pushes f m m' →
      MoveStop d r s stop m m'
  | act {m m' : Machine} : ActStop d r s stop m m' → MoveStop d r s stop m m'

/-- The ways of an instruction. -/
def moves (d : Discipline) (r : Reentry) : Ways := ⟨Move d r, MoveStop d r⟩

/-- Every call that returns leaves no exception pending. -/
def Reentry.Settles (r : Reentry) : Prop :=
  ∀ cls decl args s m v m', r.call cls decl args s m = .ok (.returned v) m' →
    m'.thread.pending = none

namespace Exec

variable {α : Type} {x : Exec α} {d : Discipline} {r : Reentry} {P : Machine → Prop}
  {Q : α → Machine → Prop}

theorem Along.moves_of_acts (hx : Along (acts d r) P x Q) : Along (moves d r) P x Q :=
  hx.mono (fun _ _ _ => .act) fun _ _ _ _ => .act

theorem Along.of_sameFrames (hx : Keeps Machine.SameFrames x)
    (hQ : ∀ s m a m', P m → x s m = .ok a m' → Q a m') : Along (acts d r) P x Q :=
  .of_keeps hx (fun _ _ _ => .work) (fun _ _ _ _ => .own) hQ

theorem Along.within (hx : Keeps Machine.Within x) : Along (moves d r) P x fun _ _ => True :=
  .of_keeps hx (fun _ _ _ => .within) (fun _ _ _ _ => .within) fun _ _ _ _ _ _ => trivial

/-- A computation that leaves the thread alone keeps a machine ready. -/
theorem Along.sameThread_acts (hx : Keeps Machine.SameThread x) :
    Along (acts d r) d.Ready x fun _ => d.Ready :=
  .of_sameFrames hx.sameStacks.sameFrames fun _ _ _ _ ready h clear => by
    rw [(hx.of_ok h).thread]
    exact ready clear

theorem Along.sameThread_moves (hx : Keeps Machine.SameThread x) :
    Along (moves d r) d.Ready x fun _ => d.Ready := (Along.sameThread_acts hx).moves_of_acts

end Exec

/-! ## No exception becomes pending

A method is called only behind what would have raised an exception.  So a function that may raise
one says by its answer when it has not done so. -/

/-- The second machine has the pending exception of the first one, if any. -/
def Machine.SamePending (m m' : Machine) : Prop := m'.thread.pending = m.thread.pending

instance : AllowsFrame Machine.SamePending where
  refl _ := rfl
  trans _ _ _ first second := Eq.trans second first
  world _ := rfl
  operands _ _ := rfl
  frame _ _ _ _ := rfl

namespace Exec

variable {α : Type} {x : Exec α} {d : Discipline} {r : Reentry} {s : Settings} {m m' : Machine}

theorem Keeps.samePending (hx : Keeps Machine.SameThread x) : Keeps Machine.SamePending x :=
  hx.mono fun _ _ h => congrArg Thread.pending h.thread

theorem onFrame_samePending (f : Frame → Except Fault (α × Frame)) :
    Keeps Machine.SamePending (onFrame f) := by
  refine onThread_keeps fun m a t h => ?_
  cases current : m.thread.frame with
  | error e => rw [current] at h; cases h
  | ok g =>
      rw [current] at h
      cases moved : f g with
      | error e => simp only [bind, Except.bind, moved] at h; cases h
      | ok result =>
          simp only [bind, Except.bind, moved, pure, Except.pure] at h
          cases h
          rfl

theorem resolveClass_some {name : String} {c : LoadedClass}
    (h : resolveClass name s m = .ok (some c) m') :
    m' = m ∧ m.world.library.find? name = some c := by
  obtain ⟨lib, mid, first, h⟩ := bind_eq_ok h
  cases first
  cases found : m.world.library.find? name with
  | some c =>
      simp only [found] at h
      cases h
      exact ⟨rfl, rfl⟩
  | none =>
      simp only [found] at h
      obtain ⟨_, _, _, h⟩ := bind_eq_ok h
      cases h

theorem resolveMethod_some {ref : MemberRef} {decl : MethodDecl}
    (h : resolveMethod ref s m = .ok (some decl) m') : m' = m := by
  obtain ⟨lib, mid, first, h⟩ := bind_eq_ok h
  cases first
  cases found : m.world.library.resolveMethod ref.className ref.name ref.descriptor with
  | some decl =>
      simp only [found] at h
      cases h
      rfl
  | none =>
      simp only [found] at h
      obtain ⟨_, _, _, h⟩ := bind_eq_ok h
      cases h

theorem receiverClass_some {v : Value} {c : LoadedClass}
    (h : receiverClass v s m = .ok (some c) m') : m' = m := by
  unfold receiverClass at h
  split at h
  · obtain ⟨_, _, _, h⟩ := bind_eq_ok h
    cases h
  · rw [bind_of_ok heap_run] at h
    obtain ⟨_, _, found, h⟩ := bind_eq_ok h
    cases h
    exact ((Keeps.ofExcept (R := Eq) _).of_ok found).symm
  · exact (resolveClass_some h).1
  · cases h

theorem resolveFieldRef_some {ref : MemberRef} {f : FieldRef}
    (h : resolveFieldRef ref s m = .ok (some f) m') : m.SamePending m' := by
  obtain ⟨cls, mid, first, rest⟩ := bind_eq_ok h
  cases cls with
  | none => cases rest
  | some c =>
      rw [(resolveClass_some first).1] at rest
      obtain ⟨field, last, second, rest⟩ := bind_eq_ok rest
      cases field with
      | none =>
          obtain ⟨_, _, _, rest⟩ := bind_eq_ok rest
          cases rest
      | some g =>
          cases rest
          exact (resolveField_keeps _ _).of_ok second

theorem readField_some {static : Bool} {f : FieldRef}
    (h : readField static s m = .ok (some f) m') : m.SamePending m' := by
  obtain ⟨ref, mid, first, h⟩ := bind_eq_ok h
  obtain ⟨field, last, second, h⟩ := bind_eq_ok h
  have read : m.SamePending mid := readFieldRef_keeps.of_ok first
  cases field with
  | none => cases h
  | some g =>
      have resolved : mid.SamePending last := resolveFieldRef_some second
      simp only at h
      split at h
      · cases h
        exact IsTrans.trans _ _ _ read resolved
      · obtain ⟨_, _, _, h⟩ := bind_eq_ok h
        cases h

/-! ## Entering a frame -/

/-- Taking the arguments of a call off the stack. -/
theorem truncateArgs_allowed {R : Machine → Machine → Prop} [AllowsOperands R] {decl : MethodDecl}
    (h : ¬ m.thread.operandDepth < decl.argCount) :
    R m { m with thread := m.thread.truncate (m.thread.operands.size - decl.argCount) } := by
  refine truncate_allowed fun reaches => ?_
  rw [Array.length_toList] at reaches
  unfold Thread.operandDepth at h
  simp only [Machine.base] at reaches ⊢
  omega

/-- A frame that is entered takes the arguments from the top of the stack. -/
theorem pushFrame_ok {cls : LoadedClass} {decl : MethodDecl}
    (h : pushFrame cls decl s m = .ok () m') :
    ∃ f mid, m.SameFrames mid ∧ mid.operands = m.operands.take (m.operands.length - decl.argCount) ∧
      Pushes f mid m' ∧ f.method = decl ∧ f.monitors = [] ∧ f.pc = 0 ∧ m.SamePending m' := by
  rw [pushFrame, bind_of_ok thread_run] at h
  split at h
  · cases h
  next enough =>
    rw [bind_of_ok (modifyThread_run _)] at h
    obtain ⟨locals, mid, placed, h⟩ := bind_eq_ok h
    obtain ⟨_, told, reported, h⟩ := bind_eq_ok h
    cases h
    have same := (Keeps.ofExcept (R := Eq) _).of_ok placed
    have sameThread : mid.SameThread told := (report_keeps _).of_ok reported
    rw [← same] at sameThread
    have operands : told.operands = m.operands.take (m.operands.length - decl.argCount) := by
      rw [Machine.operands, sameThread.thread, Thread.truncate, Operand.toList_take,
        Array.length_toList]
    have base : m.thread.operands.size - decl.argCount = told.operands.length := by
      rw [operands, List.length_take, Array.length_toList]
      omega
    refine ⟨_, told, IsTrans.trans _ _ _ (truncateArgs_allowed enough)
      sameThread.sameFrames, operands,
      .of_pushFrame base (Nat.zero_le _) (Frame.localsOf_paired (ofExcept_eq_ok placed).1 rfl), rfl,
      rfl, rfl, ?_⟩
    have pending : told.thread.pending = m.thread.pending := by rw [sameThread.thread]; rfl
    exact pending

/-- A frame that cannot be entered leaves at most its arguments taken off. -/
theorem pushFrame_error {cls : LoadedClass} {decl : MethodDecl} {stop : Stop}
    (h : pushFrame cls decl s m = .error stop m') : m.SameFrames m' := by
  rw [pushFrame, bind_of_ok thread_run] at h
  split at h
  · cases h
    exact Std.Refl.refl m
  next enough =>
    rw [bind_of_ok (modifyThread_run _)] at h
    have taken := truncateArgs_allowed (R := Machine.SameFrames) enough
    obtain failed | ⟨locals, mid, placed, h⟩ := bind_eq_error h
    · exact IsTrans.trans _ _ _ taken ((Keeps.ofExcept _).of_error failed)
    · have same := (Keeps.ofExcept (R := Eq) _).of_ok placed
      rw [← same] at h
      obtain failed | ⟨_, told, reported, h⟩ := bind_eq_error h
      · exact IsTrans.trans _ _ _ taken ((report_keeps _).of_error failed)
      · cases h

/-- A monitor goes to the frame that was just put on top. -/
theorem pushMonitor_pushes {f : Frame} {start : Machine} (k : MonitorKey) (h : Pushes f start m) :
    ∃ f', Pushes f' start ((pushMonitor k).after s m) ∧ f'.method = f.method ∧ f'.pc = f.pc := by
  have top : m.thread.frames = f :: start.frames := h.frames
  have current : frame s m = .ok f m := frame_of_cons top
  cases entered : (m.world.monitors.get k).enter? m.thread.id with
  | none =>
      have run : pushMonitor k s m = .error .blocked m := by
        rw [pushMonitor, bind_of_ok current, bind_of_error]
        simp only [enterMonitor, bind_of_ok (x := get) (s := s) (m := m) rfl, entered]
        rfl
      rw [after_of_error run]
      exact ⟨f, h, rfl, rfl⟩
  | some monitor =>
      let f' : Frame := { f with monitors := k :: f.monitors }
      have run : pushMonitor k s m = .ok ()
          { world := { m.world with monitors := m.world.monitors.set k monitor }
            thread := { m.thread with frames := f' :: start.frames } } := by
        rw [pushMonitor, bind_of_ok current]
        have first : enterMonitor k s m = .ok ()
            { m with world := { m.world with monitors := m.world.monitors.set k monitor } } := by
          simp only [enterMonitor, bind_of_ok (x := get) (s := s) (m := m) rfl, entered]
          rfl
        rw [bind_of_ok first]
        exact moveFrame_of_ok top rfl
      rw [after_of_ok run]
      exact ⟨f', ⟨rfl, h.operands, h.base, h.pc, h.paired, h.depths, h.level, h.deepest, h.bare,
        h.halted⟩, rfl, rfl⟩

theorem enterFrame_samePending (cls : LoadedClass) (decl : MethodDecl)
    (monitor : Option MonitorKey) :
    Keeps Machine.SamePending (enterFrame cls decl monitor) := by
  have pushed : Keeps Machine.SamePending (pushFrame cls decl) := by
    unfold pushFrame
    refine thread_keeps.bind fun t => ?_
    split
    · exact .fail _
    · refine Keeps.bind (fun _ _ => rfl) fun _ => Keeps.bind (.ofExcept _) fun locals => ?_
      exact (report_keeps _).bind fun _ => fun _ _ => rfl
  have locked (k : MonitorKey) : Keeps Machine.SamePending (pushMonitor k) :=
    frame_keeps.bind fun _ => (enterMonitor_sameThread k).samePending.bind
      fun _ => onFrame_samePending _
  refine pushed.bind fun _ => Keeps.bind (.forM_option locked monitor) fun _ => Keeps.discard ?_
  refine onThread_keeps fun m n t h => ?_
  unfold Thread.deepen at h
  split at h
  · cases h
    rfl
  · cases h

/-- Entering a frame puts it on top of what is left when its arguments are taken off. -/
theorem enterFrame_ok {cls : LoadedClass} {decl : MethodDecl} {monitor : Option MonitorKey}
    (h : enterFrame cls decl monitor s m = .ok () m') :
    ∃ f mid, m.SameFrames mid ∧ mid.operands = m.operands.take (m.operands.length - decl.argCount) ∧
      Enters f mid m' ∧ f.method = decl ∧ f.pc = 0 := by
  obtain ⟨_, top, pushed, h⟩ := bind_eq_ok h
  obtain ⟨f, mid, sameFrames, operands, pushes, method, -, pc, -⟩ := pushFrame_ok pushed
  obtain ⟨_, held, locked, h⟩ := bind_eq_ok h
  have lockedPushes : ∃ f', Pushes f' mid held ∧ f'.method = decl ∧ f'.pc = 0 := by
    cases monitor with
    | none =>
        cases locked
        exact ⟨f, pushes, method, pc⟩
    | some k =>
        obtain ⟨f', pushes', method', pc'⟩ := pushMonitor_pushes (s := s) k pushes
        have run : (pushMonitor k).after s top = held := after_of_ok locked
        rw [run] at pushes'
        exact ⟨f', pushes', method'.trans method, pc'.trans pc⟩
  obtain ⟨f', pushes', method', pc'⟩ := lockedPushes
  refine ⟨f', mid, sameFrames, operands, ?_, method', pc'⟩
  cases depths : held.thread.depths with
  | nil =>
      have failed : held.thread.deepen = .error .depthStackEmpty := by
        rw [Thread.deepen, depths]
      rw [discard_of_error (onThread_of_error failed)] at h
      cases h
  | cons n rest =>
      have deepened : held.thread.deepen =
          .ok (n + 1, { held.thread with depths := (n + 1) :: rest }) := by
        rw [Thread.deepen, depths]
      rw [discard_of_ok (onThread_of_ok deepened)] at h
      cases h
      exact ⟨⟨held, pushes', rfl⟩, n, rest, pushes'.depths ▸ depths, rfl⟩

/-- Entering a frame stops before the frame is put on top, or after that and before it is
counted. -/
theorem enterFrame_error {cls : LoadedClass} {decl : MethodDecl} {monitor : Option MonitorKey}
    {stop : Stop} (h : enterFrame cls decl monitor s m = .error stop m') :
    m.SameFrames m' ∨ ∃ f mid, m.SameFrames mid ∧ Pushes f mid m' := by
  obtain failed | ⟨_, top, pushed, h⟩ := bind_eq_error h
  · exact .inl (pushFrame_error failed)
  · obtain ⟨f, mid, sameFrames, -, pushes, -⟩ := pushFrame_ok pushed
    refine .inr ?_
    have lockedPushes : ∃ f', Pushes f' mid ((monitor.forM pushMonitor).after s top) := by
      cases monitor with
      | none => exact ⟨f, pushes⟩
      | some k =>
          obtain ⟨f', pushes', -⟩ := pushMonitor_pushes (s := s) k pushes
          exact ⟨f', pushes'⟩
    obtain ⟨f', pushes'⟩ := lockedPushes
    refine ⟨f', mid, sameFrames, ?_⟩
    obtain failed | ⟨_, held, locked, h⟩ := bind_eq_error h
    · rwa [after_of_error failed] at pushes'
    · rw [after_of_ok locked] at pushes'
      cases deepened : held.thread.deepen with
      | ok result =>
          obtain ⟨n, t⟩ := result
          rw [discard_of_ok (onThread_of_ok deepened)] at h
          cases h
      | error e =>
          rw [discard_of_error (onThread_of_error deepened)] at h
          cases h
          exact pushes'

/-! ## Calling a method -/

variable {host : Host}

theorem callMonitor_keeps {R : Machine → Machine → Prop} [AllowsWorld R] (cls : LoadedClass)
    (decl : MethodDecl) : Keeps R (callMonitor cls decl) := by
  unfold callMonitor
  split
  · exact (methodMonitor_keeps cls decl).map some
  · exact .pure _

theorem lock_sameThread {monitor : Option MonitorKey}
    (h : (monitor.forM enterMonitor : Exec PUnit) s m = .ok () m') : m.SameThread m' :=
  (Keeps.forM_option enterMonitor_sameThread monitor).of_ok h

theorem unlock_sameThread {monitor : Option MonitorKey}
    (h : (monitor.forM fun k => discard (exitMonitor k) : Exec PUnit) s m = .ok () m') :
    m.SameThread m' :=
  (Keeps.forM_option (fun k => (exitMonitor_sameThread k).discard) monitor).of_ok h

/-- How the invocation of a method came to the answer whether a frame was entered. -/
inductive Called (host : Host) (cls : LoadedClass) (decl : MethodDecl) (s : Settings)
    (m : Machine) : Bool → Machine → Prop
  /-- The method is abstract. -/
  | abstract {m' : Machine} :
      raise Throwable.abstractMethodError (some decl.signature) s m = .ok () m' →
      Called host cls decl s m false m'
  /-- The method is a native, which has run. -/
  | native {mid m' : Machine} {monitor : Option MonitorKey} : decl.flags.isNative = true →
      callMonitor cls decl s m = .ok monitor mid →
      invokeNative host decl monitor s mid = .ok () m' → Called host cls decl s m false m'
  /-- There was no room for a frame. -/
  | overflow {mid told m' : Machine} {monitor : Option MonitorKey} :
      callMonitor cls decl s m = .ok monitor mid → s.config.maxFrames ≤ mid.frames.length →
      report (.stackOverflow decl.signature mid.frames.length) s mid = .ok () told →
      raise Throwable.stackOverflowError none s told = .ok () m' →
      Called host cls decl s m false m'
  /-- A frame was entered. -/
  | entered {mid m' : Machine} {monitor : Option MonitorKey} :
      callMonitor cls decl s m = .ok monitor mid → mid.frames.length < s.config.maxFrames →
      enterFrame cls decl monitor s mid = .ok () m' → Called host cls decl s m true m'

theorem invoke_cases {cls : LoadedClass} {decl : MethodDecl} {entered : Bool}
    (h : invoke host cls decl s m = .ok entered m') : Called host cls decl s m entered m' := by
  unfold invoke at h
  split at h
  · obtain ⟨_, mid, raised, h⟩ := bind_eq_ok h
    cases h
    exact .abstract raised
  · obtain ⟨monitor, mid, locked, h⟩ := bind_eq_ok h
    split at h
    next native =>
      obtain ⟨_, last, ran, h⟩ := bind_eq_ok h
      cases h
      exact .native native locked ran
    · rw [invokeCode, bind_of_ok thread_run, bind_of_ok (x := read) (s := s) (m := mid) rfl] at h
      split at h
      next full =>
        obtain ⟨_, told, reported, h⟩ := bind_eq_ok h
        obtain ⟨_, last, raised, h⟩ := bind_eq_ok h
        cases h
        exact .overflow locked full reported raised
      next room =>
        obtain ⟨_, last, framed, h⟩ := bind_eq_ok h
        cases h
        exact .entered locked (Nat.lt_of_not_le room) framed

/-- How the native of a method came to an end, inside the monitor of its call. -/
inductive NativeEnded (host : Host) (decl : MethodDecl) (monitor : Option MonitorKey)
    (s : Settings) (m m' : Machine) : Prop
  /-- There is none, and an exception was raised. -/
  | missing {told locked freed : Machine} :
      report (.invokeNative decl.signature) s m = .ok () told →
      (monitor.forM enterMonitor : Exec PUnit) s told = .ok () locked →
      (monitor.forM fun k => discard (exitMonitor k) : Exec PUnit) s locked = .ok () freed →
      (do report (.noNative decl.signature)
          raise Throwable.unsatisfiedLinkError (some decl.signature) : Exec Unit) s freed =
        .ok () m' → NativeEnded host decl monitor s m m'
  /-- It has run. -/
  | ran {native : NativeFn} {told locked left : Machine} :
      report (.invokeNative decl.signature) s m = .ok () told →
      (monitor.forM enterMonitor : Exec PUnit) s told = .ok () locked →
      host.natives.find? decl.signature = some native →
      native host.toReentry s locked = .ok () left →
      (monitor.forM fun k => discard (exitMonitor k) : Exec PUnit) s left = .ok () m' →
      NativeEnded host decl monitor s m m'

theorem invokeNative_cases {decl : MethodDecl} {monitor : Option MonitorKey}
    (h : invokeNative host decl monitor s m = .ok () m') : NativeEnded host decl monitor s m m' := by
  obtain ⟨_, told, reported, h⟩ := bind_eq_ok h
  obtain ⟨_, locked, entered, h⟩ := bind_eq_ok h
  cases found : host.natives.find? decl.signature with
  | none =>
      rw [found] at h
      obtain ⟨_, freed, exited, raised⟩ := bind_eq_ok h
      exact .missing reported entered exited raised
  | some native =>
      rw [found] at h
      obtain ⟨result, left, attempted, h⟩ := bind_eq_ok h
      obtain ⟨_, freed, exited, h⟩ := bind_eq_ok h
      cases result with
      | error e => cases h
      | ok u =>
          cases h
          exact .ran reported entered found (attempt_eq_ok attempted) exited

theorem exitMonitor_tidies (monitor : Option MonitorKey) (result : Except Fault α)
    (s : Settings) (m : Machine) : ∃ m', m.SameThread m' ∧
      (do monitor.forM fun k => discard (exitMonitor k); ofExcept result : Exec α) s m =
        ofExcept result s m' := by
  cases monitor with
  | none => exact ⟨m, Std.Refl.refl m, rfl⟩
  | some k => exact ⟨_, exitMonitor_sameThread k s m, bind_of_ok (discard_of_ok rfl)⟩

theorem invokeNative_along (hn : host.natives.Keep d host.toReentry) (decl : MethodDecl)
    (monitor : Option MonitorKey) :
    Along (acts d host.toReentry) d.Ready (invokeNative host decl monitor) fun _ _ => True := by
  unfold invokeNative
  refine (Along.sameThread_acts (report_keeps _)).bind fun _ => ?_
  refine (Along.sameThread_acts (.forM_option enterMonitor_sameThread monitor)).bind fun _ => ?_
  split
  next native found =>
    exact (hn _ _ found).tidied (exitMonitor_tidies monitor)
      (fun _ _ _ h => .work h.sameFrames) (fun _ _ _ _ _ stops h => stops.tidied h)
      fun _ _ _ _ _ => trivial
  next =>
    refine (Along.sameThread_acts ?_).bind fun _ => (Along.sameThread_acts (report_keeps _)).bind
      fun _ => ?_
    · exact .forM_option (fun k => (exitMonitor_sameThread k).discard) monitor
    · exact .of_sameFrames (raise_keeps _ _) fun _ _ _ _ _ _ => trivial

/-- What a call comes to that has a result.  Either the machine was acted upon, or a frame was
entered for the method, on top of what is left when the arguments are taken off. -/
inductive Invoked (d : Discipline) (r : Reentry) (s : Settings) (decl : MethodDecl) (m : Machine) :
    Bool → Machine → Prop
  | acted {m' : Machine} : ReflTransGen (Act d r s) m m' → Invoked d r s decl m false m'
  | entered {m' mid : Machine} {f : Frame} : m.SameFrames mid →
      mid.operands = m.operands.take (m.operands.length - decl.argCount) →
      mid.frames.length < s.config.maxFrames → Enters f mid m' → f.method = decl →
        m.SamePending m' →
      Invoked d r s decl m true m'

/-- How a call stops: as a native does, or after a frame was put on top. -/
inductive InvokeStop (d : Discipline) (r : Reentry) (s : Settings) (stop : Stop) :
    Machine → Machine → Prop
  | act {m m' : Machine} : ActStop d r s stop m m' → InvokeStop d r s stop m m'
  | pushed {m m' : Machine} {f : Frame} : m.frames.length < s.config.maxFrames → Pushes f m m' →
      InvokeStop d r s stop m m'

theorem invokeCode_error {cls : LoadedClass} {decl : MethodDecl} {monitor : Option MonitorKey}
    {stop : Stop} (h : invokeCode cls decl monitor s m = .error stop m') :
    ∃ mid, m.SameFrames mid ∧ InvokeStop d r s stop mid m' := by
  rw [invokeCode, bind_of_ok thread_run, bind_of_ok (x := read) (s := s) (m := m) rfl] at h
  split at h
  · have sameFrames : Keeps Machine.SameFrames (do
        report (.stackOverflow decl.signature m.thread.frames.length)
        raise Throwable.stackOverflowError none
        return false) :=
      ((report_keeps _).bind fun _ => (raise_keeps _ _).bind fun _ => .pure _).sameFrames
    exact ⟨m, Std.Refl.refl m, .act (.own (sameFrames.of_error h))⟩
  next room =>
    obtain failed | ⟨_, mid, framed, h⟩ := bind_eq_error h
    · obtain sameFrames | ⟨f, mid, sameFrames, pushes⟩ := enterFrame_error failed
      · exact ⟨m, Std.Refl.refl m, .act (.own sameFrames)⟩
      · refine ⟨mid, sameFrames, .pushed ?_ pushes⟩
        rw [sameFrames.frames_eq]
        exact Nat.lt_of_not_le room
    · cases h

theorem invoke_ok (hn : host.natives.Keep d host.toReentry) {cls : LoadedClass}
    {decl : MethodDecl} {entered : Bool} (ready : d.Ready m)
    (h : invoke host cls decl s m = .ok entered m') :
    Invoked d host.toReentry s decl m entered m' := by
  cases invoke_cases h with
  | abstract raised => exact .acted (.single (.work ((raise_keeps _ _).of_ok raised)))
  | @native mid _ _ _ locked ran =>
      have sameThread : m.SameThread mid := (callMonitor_keeps cls decl).of_ok locked
      have still : d.Ready mid := fun clear => by rw [sameThread.thread]; exact ready clear
      obtain ⟨steps, -⟩ := (invokeNative_along hn decl _).of_ok still ran
      exact .acted (.head (.work sameThread.sameFrames) steps)
  | @overflow mid told _ _ locked _ reported raised =>
      have sameFrames : m.SameFrames told := IsTrans.trans _ mid _
        ((callMonitor_keeps cls decl).of_ok locked) ((report_keeps _).of_ok reported)
      exact .acted (.single (.work
        (IsTrans.trans _ _ _ sameFrames ((raise_keeps _ _).of_ok raised))))
  | @entered mid _ _ locked room framed =>
      have sameThread : m.SameThread mid := (callMonitor_keeps cls decl).of_ok locked
      obtain ⟨f, below, sameFrames, operands, enters, method, -⟩ := enterFrame_ok framed
      refine .entered (IsTrans.trans _ _ _ sameThread.sameFrames sameFrames) ?_ ?_ enters
        method ?_
      · rw [operands, Machine.operands, sameThread.thread]
      · rwa [sameFrames.frames_eq]
      · exact ((enterFrame_samePending _ _ _).of_ok framed).trans
          (congrArg Thread.pending sameThread.thread)

theorem invoke_error (hn : host.natives.Keep d host.toReentry) {cls : LoadedClass}
    {decl : MethodDecl} {stop : Stop} (ready : d.Ready m)
    (h : invoke host cls decl s m = .error stop m') :
    ∃ mid, ReflTransGen (Act d host.toReentry s) m mid ∧
      InvokeStop d host.toReentry s stop mid m' := by
  unfold invoke at h
  split at h
  · have sameFrames : Keeps Machine.SameFrames (do
        raise Throwable.abstractMethodError (some decl.signature)
        return false) := ((raise_keeps _ _).bind fun _ => .pure _).sameFrames
    exact ⟨m, .refl, .act (.own (sameFrames.of_error h))⟩
  · obtain failed | ⟨monitor, mid, found, h⟩ := bind_eq_error h
    · exact ⟨m, .refl, .act (.own ((callMonitor_keeps cls decl).of_error failed))⟩
    · have sameThread : m.SameThread mid := (callMonitor_keeps cls decl).of_ok found
      split at h
      · have still : d.Ready mid := fun clear => by rw [sameThread.thread]; exact ready clear
        obtain failed | ⟨_, last, ran, h⟩ := bind_eq_error h
        · obtain ⟨last, steps, stops⟩ := (invokeNative_along hn decl monitor).of_error still failed
          exact ⟨last, .head (.work sameThread.sameFrames) steps, .act stops⟩
        · cases h
      · obtain ⟨last, sameFrames, stops⟩ := invokeCode_error (d := d) (r := host.toReentry) h
        exact ⟨last, .head (.work sameThread.sameFrames)
          (.single (.work sameFrames)), stops⟩

theorem Invoked.moves {decl : MethodDecl} {entered : Bool} (h : Invoked d r s decl m entered m') :
    ReflTransGen (Move d r s) m m' := by
  cases h with
  | acted steps => exact ReflTransGen.mono (fun _ _ => Move.act) _ _ steps
  | entered sameFrames _ room enters _ _ =>
      exact .head (.within sameFrames.toWithin) (.single (.enter room enters))

theorem invoke_along (hn : host.natives.Keep d host.toReentry) (cls : LoadedClass)
    (decl : MethodDecl) :
    Along (moves d host.toReentry) d.Ready (invoke host cls decl) fun _ _ => True := by
  refine fun s m ready => ⟨fun a m' h => ⟨(invoke_ok hn ready h).moves, trivial⟩,
    fun stop m' h => ?_⟩
  obtain ⟨mid, steps, stops⟩ := invoke_error hn ready h
  refine ⟨mid, ReflTransGen.mono (fun _ _ => Move.act) _ _ steps, ?_⟩
  cases stops with
  | act stops => exact .act stops
  | pushed room pushes => exact .pushed room pushes

/-! ## Bringing a class into use -/

theorem call_acts (host : Host) (cls : LoadedClass) (decl : MethodDecl) (args : List Value) :
    Along (acts d host.toReentry) d.Ready (host.call cls decl args) fun _ _ => True :=
  fun _ m ready => ⟨fun _ _ h => ⟨.single (.call ready h), trivial⟩,
    fun _ m' h => ⟨m, .refl, .called ready h (Std.Refl.refl m')⟩⟩

end Exec

/-- Ways that allow what keeps away from the frames and the monitors, and a call of a method. -/
structure Ways.Calls (w : Ways) (d : Discipline) (host : Host) : Prop where
  /-- What keeps away from them is a step. -/
  step : ∀ {s : Settings} {m m' : Machine}, m.SameFramesMonitors m' → w.step s m m'
  /-- A computation may stop after that. -/
  stop : ∀ {s : Settings} {stop : Stop} {m m' : Machine},
    m.SameFramesMonitors m' → w.stop s stop m m'
  /-- A computation that stops may be tidied up after. -/
  tidied : ∀ {s : Settings} {stop : Stop} {m mid m' : Machine}, w.stop s stop m mid →
    mid.SameThreadMonitors m' → w.stop s stop m m'
  /-- A method is called while the machine is ready for it. -/
  call : ∀ cls decl args, Exec.Along w d.Ready (host.call cls decl args) fun _ _ => True

theorem acts_calls {d : Discipline} (host : Host) : (acts d host.toReentry).Calls d host where
  step same := .work same.toSameFrames
  stop same := .own same.toSameFrames
  tidied stops same := stops.tidied same.toSameThread
  call := Exec.call_acts host

namespace Exec

variable {w : Ways}

theorem Along.sameFramesMonitors (hw : w.Calls d host) (hx : Keeps Machine.SameFramesMonitors x) :
    Along w P x fun _ _ => True :=
  .of_keeps hx (fun _ _ _ => hw.step) (fun _ _ _ _ => hw.stop) fun _ _ _ _ _ _ => trivial

/-- A computation that leaves the thread alone keeps a machine ready. -/
theorem Along.sameThreadMonitors (hw : w.Calls d host) (hx : Keeps Machine.SameThreadMonitors x) :
    Along w d.Ready x fun _ => d.Ready :=
  .of_keeps hx (fun _ _ _ same => hw.step same.sameFramesMonitors)
    (fun _ _ _ _ same => hw.stop same.sameFramesMonitors)
    fun _ _ _ _ ready h clear => by
      rw [(hx.of_ok h).thread]
      exact ready clear

/-- A call that returns leaves the machine ready for another one. -/
theorem call_along (hw : w.Calls d host) (hset : host.Settles) (cls : LoadedClass)
    (decl : MethodDecl) (args : List Value) :
    Along w d.Ready (host.call cls decl args) fun i m' => (∃ v, i = .returned v) → d.Ready m' := by
  refine fun s m ready => ⟨fun i m' h => ?_, (hw.call cls decl args s m ready).2⟩
  refine ⟨((hw.call cls decl args).of_ok ready h).1, ?_⟩
  rintro ⟨v, rfl⟩ -
  exact hset cls decl args s m v m' h

theorem Along.uncounted (hw : w.Calls d host) (hx : Along w d.Ready x Q)
    (hQ : ∀ a m m', Q a m → m.SameThreadMonitors m' → Q a m') :
    Along w d.Ready (uncounted x) Q := by
  refine (Along.sameThreadMonitors hw world_keeps).bind fun before => ?_
  refine Along.tidied (R := Machine.SameThreadMonitors) hx (fun result s m => ?_)
    (fun _ _ _ same => hw.step same.sameFramesMonitors)
      (fun _ _ _ _ _ => hw.tidied) hQ
  exact ⟨{ m with world := { m.world with refusals := before.refusals } },
    AllowsWorld.world (.of_eq rfl rfl rfl rfl rfl rfl rfl rfl rfl id), rfl⟩

theorem runInitialiser_along (hw : w.Calls d host) (hset : host.Settles) (cls : LoadedClass) :
    Along w d.Ready (runInitialiser host cls) fun usable m' => usable = true → d.Ready m' := by
  unfold runInitialiser
  split
  · exact .pure true fun m ready _ => ready
  · refine (Along.sameThreadMonitors hw (report_keeps _)).bind fun _ => ?_
    refine (Along.sameThreadMonitors hw library_keeps).bind
      fun _ => (Along.sameThreadMonitors hw world_keeps).bind fun _ => ?_
    refine (Along.sameThreadMonitors hw (record_sameThreadMonitors _)).bind fun _ => ?_
    refine (Along.uncounted hw (call_along hw hset _ _ _)
      fun i m m' ready sameMonitors returned clear => ?_).bind
      fun i => ?_
    · rw [sameMonitors.thread]
      exact ready returned clear
    cases i with
    | returned v => exact .pure true fun m ready _ => ready ⟨v, rfl⟩
    | threw e => exact .pure false fun m _ unusable => nomatch unusable
    | halted => exact .pure false fun m _ unusable => nomatch unusable

theorem report_ok (e : Event) (s : Settings) (m : Machine) :
    ∃ m', m.SameThreadMonitors m' ∧ report e s m = .ok () m' := by
  obtain ⟨events, reported⟩ := report_run (s := s) (m := m) e
  exact ⟨_, (report_keeps e).of_ok reported, reported⟩

theorem ensureInitialisedWithin_along (hw : w.Calls d host) (hset : host.Settles) :
    ∀ (n : Nat) (cls : LoadedClass), Along w d.Ready (ensureInitialisedWithin host n cls)
      fun usable m' => usable = true → d.Ready m'
  | 0, _ => .of_keeps (R := Machine.SameFramesMonitors) (.throw _) (fun _ _ _ => hw.step)
      (fun _ _ _ _ => hw.stop) fun _ _ _ _ _ h => nomatch h
  | n + 1, cls => by
      refine (Along.sameThreadMonitors hw (beginInitialisation_sameThreadMonitors cls.id)).bind
        fun action => ?_
      cases action with
      | ready => exact .pure true fun m ready _ => ready
      | failed =>
          refine (Along.sameFramesMonitors hw (raise_keeps _ _)).bind fun _ => ?_
          exact .pure false fun m _ unusable => nomatch unusable
      | run =>
          refine Along.tidied (R := Machine.SameThreadMonitors) ?_ ?_
            (fun _ _ _ same => hw.step same.sameFramesMonitors)
            (fun _ _ _ _ _ => hw.tidied) ?_
          · refine (Along.sameThreadMonitors hw library_keeps).bind fun lib => ?_
            split
            · refine (ensureInitialisedWithin_along hw hset n _).bind fun usable => ?_
              cases usable with
              | true =>
                  exact (runInitialiser_along hw hset cls).weaken (fun m ready => ready rfl)
                    fun _ _ h => h
              | false => exact .pure false fun m _ unusable => nomatch unusable
            · exact runInitialiser_along hw hset cls
          · intro result s m
            obtain ⟨told, sameMonitors, reported⟩ := report_ok
              (.initialisationFinished cls.name (result.toOption.getD false)) s
              ((finishInitialisation cls.id (result.toOption.getD false)).after s m)
            refine ⟨told, IsTrans.trans _ _ _ (finishInitialisation_sameThreadMonitors _ _ s m)
              sameMonitors, ?_⟩
            exact bind_of_ok reported
          · intro usable m m' h sameMonitors usable' clear
            rw [sameMonitors.thread]
            exact h usable' clear

theorem ensureInitialised_along (hw : w.Calls d host) (hset : host.Settles) (cls : LoadedClass) :
    Along w d.Ready (ensureInitialised host cls) fun usable m' => usable = true → d.Ready m' :=
  (Along.sameThreadMonitors hw library_keeps).bind
    fun _ => ensureInitialisedWithin_along hw hset _ cls

/-! ## Exceptions that nobody catches -/

/-- Looks for the method of the thread's group that an exception is delivered to, and for what it
is called with. -/
def seekGroup (exception : Handle) : Exec (Option (LoadedClass × MethodDecl × List Value)) := do
  let exceptionClass ← ofExcept ((← heap).classOf exception)
  match ← threadGroup with
  | none =>
      report (.uncaughtWithoutGroup exceptionClass.name)
      return none
  | some (thread, group) =>
      let groupClass ← ofExcept ((← heap).classOf group)
      let (name, descriptor) := uncaughtHandler
      match (← library).findVirtual groupClass name descriptor with
      | none => fail (.unresolvedMethod groupClass.name name descriptor)
      | some handler =>
          report (.delivering exceptionClass.name groupClass.name)
          let cls ← declaringClass handler
          return some (cls, handler, [.object group, .object thread, .object exception])

/-- Drops what the method of the group has thrown. -/
def dropSecond : Invocation → Exec Unit
  | .threw second => do
      let _ ← takePending
      let secondClass ← ofExcept ((← heap).classOf second)
      report (.handlerThrew secondClass.name)
  | .returned _ | .halted => pure ()

/-- Calls the method of the group, if there is one. -/
def callGroup (host : Host) (exception : Handle) :
    Option (LoadedClass × MethodDecl × List Value) → Exec Unit
  | none => pure ()
  | some (cls, handler, args) => do
      record (.delivered exception)
      dropSecond (← host.call cls handler args)

theorem deliverUncaught_eq (host : Host) (exception : Handle) :
    deliverUncaught host exception = do
      let _ ← takePending
      callGroup host exception (← seekGroup exception)
      return .uncaught exception := by
  unfold deliverUncaught seekGroup
  simp only [bind_assoc]
  refine bind_congr fun _ => bind_congr fun h => bind_congr fun exceptionClass =>
    bind_congr fun group => ?_
  cases group with
  | none => simp [callGroup]
  | some pair =>
      simp only [bind_assoc]
      refine bind_congr fun h => bind_congr fun groupClass => bind_congr fun lib => ?_
      cases lib.findVirtual groupClass uncaughtHandler.1 uncaughtHandler.2 with
      | none => rfl
      | some handler =>
          simp only [bind_assoc, pure_bind, callGroup]
          refine bind_congr fun _ => bind_congr fun cls => bind_congr fun _ => bind_congr fun i => ?_
          cases i <;> simp [dropSecond]

theorem seekGroup_keeps {R : Machine → Machine → Prop} [AllowsWorld R] (exception : Handle) :
    Keeps R (seekGroup exception) := by
  refine heap_keeps.bind fun h => Keeps.bind (.ofExcept _) fun exceptionClass => ?_
  refine threadGroup_keeps.bind fun group => ?_
  split
  · exact (report_keeps _).bind fun _ => .pure _
  · refine heap_keeps.bind fun h => Keeps.bind (.ofExcept _) fun groupClass => ?_
    refine library_keeps.bind fun lib => ?_
    split
    · exact .fail _
    · exact (report_keeps _).bind fun _ => (declaringClass_keeps _).bind fun cls => .pure _

theorem dropSecond_keeps {R : Machine → Machine → Prop} [AllowsRaise R] (i : Invocation) :
    Keeps R (dropSecond i) := by
  cases i with
  | returned | halted => exact .pure _
  | threw second =>
      refine takePending_keeps.bind fun _ => heap_keeps.bind fun h => ?_
      exact Keeps.bind (.ofExcept _) fun secondClass => report_keeps _

theorem takePending_along (hw : w.Calls d host) :
    Along w P takePending fun _ => d.Ready :=
  .of_keeps (R := Machine.SameFramesMonitors) takePending_keeps (fun _ _ _ => hw.step)
    (fun _ _ _ _ => hw.stop)
    fun _ _ _ _ _ h _ => by cases h; rfl

theorem deliverUncaught_along (hw : w.Calls d host) (exception : Handle) :
    Along w (fun _ => True) (deliverUncaught host exception)
      fun o _ => o = .uncaught exception := by
  rw [deliverUncaught_eq]
  refine (takePending_along hw).bind fun _ => ?_
  refine (Along.sameThreadMonitors hw (seekGroup_keeps _)).bind fun group => ?_
  have calling : Along w d.Ready (callGroup host exception group) fun _ _ => True := by
    cases group with
    | none => exact .pure () fun _ _ => trivial
    | some group =>
        refine (Along.sameThreadMonitors hw (record_sameThreadMonitors _)).bind
          fun _ => (hw.call _ _ _).bind fun i => ?_
        exact .sameFramesMonitors hw (dropSecond_keeps i)
  exact calling.bind fun _ => .pure _ fun _ _ => rfl

end Exec

end JavaMachine
