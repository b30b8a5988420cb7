import JavaMachine.Proofs.ElementKinds
import JavaMachine.Proofs.Overriding

/-!
# Calls of instance methods

Three instructions call a method on an object.  Each of them reads a reference, finds a method for
it in a way of its own, and invokes that method in the class that declares it; or it raises an
exception, or it stops in a fault.  What it does up to the call does not depend on the host, so no
method runs unless it is the one that the instruction has found.  Arrays have no class to search:
they answer to `clone` alone, with a copy and without a call.

The method has the name and the descriptor of the reference.  It is an instance method wherever the
search looks at this: the method that a reference means must not be static, and the superclass chain
of the receiver is searched for instance methods.  There are two answers at which nothing looks: the
first declaration among the superinterfaces, when the chain of the receiver has no instance method,
and the nearest one above the current class, when a special call starts again there.  Unless such an
answer is static, a call takes exactly the receiver and the arguments off the stack.
-/

namespace JavaMachine

namespace Exec

variable {α : Type} {s : Settings} {m m' mid : Machine} {ref : MemberRef}

/-! ## Computations within a frame -/

/-- A computation that stays within the current frame, and if it stops, it stops in a fault. -/
abbrev Local (x : Exec α) : Prop := Tame Machine.Within x

theorem onThread_stops {f : Thread → Except Fault (α × Thread)} {stop : Stop}
    (h : onThread f s m = .error stop m') : ∃ e, stop = .fault e := by
  cases run : f m.thread with
  | ok result =>
      rw [onThread_of_ok (a := result.1) (t := result.2) run] at h
      cases h
  | error e =>
      rw [onThread_of_error run] at h
      cases h
      exact ⟨e, rfl⟩

theorem readU8_local : Local readU8 where
  keeps := readU8_keeps
  stops h := by
    obtain first | ⟨_, _, -, second⟩ := bind_eq_error h
    · exact onThread_stops first
    · cases second

theorem readU16_local : Local readU16 where
  keeps := readU16_keeps
  stops h := by
    obtain first | ⟨_, _, -, second⟩ := bind_eq_error h
    · exact onThread_stops first
    · cases second

theorem thread_local : Local thread := ⟨thread_keeps, nofun⟩

theorem library_local : Local library := ⟨library_keeps, nofun⟩

theorem heap_local : Local heap := ⟨heap_keeps, nofun⟩

theorem Local.discard {x : Exec α} (hx : Local x) : Local (Functor.discard x) :=
  Tame.bind (f := fun _ => pure ()) hx fun _ => .pure ()

theorem frame_local : Local frame := thread_local.bind fun _ => .ofExcept _

theorem peek_local (n : Nat) : Local (peek n) := thread_local.bind fun _ => .ofExcept _

theorem findClass_local (name : String) : Local (findClass name) :=
  library_local.bind fun _ => .ofExcept _

theorem raise_local (className : String) (message : Option String)
    [Throwable.Raised className] : Local (raise className message) :=
  ⟨raise_keeps _ _, (raise_leavesArrays _ _).stops⟩

theorem readMethodRef_local : Local readMethodRef := by
  refine readU16_local.bind fun index => frame_local.bind fun f => ?_
  refine (Tame.ofExcept _).bind fun c => ?_
  split
  · exact .pure _
  · exact .pure _
  · exact .fail _

theorem resolveClass_local (name : String) : Local (resolveClass name) := by
  refine library_local.bind fun lib => ?_
  split
  · exact .pure _
  · exact (raise_local _ _).bind fun _ => .pure _

theorem resolveMethod_local (ref : MemberRef) : Local (resolveMethod ref) := by
  refine library_local.bind fun lib => ?_
  split
  · exact .pure _
  · exact (raise_local _ _).bind fun _ => .pure _

theorem receiver_local (ref : MemberRef) : Local (receiver ref) :=
  (Tame.ofExcept _).bind fun _ => peek_local _

theorem receiverClass_local (v : Value) : Local (receiverClass v) := by
  unfold receiverClass
  split
  · exact (raise_local _ _).bind fun _ => .pure _
  · exact heap_local.bind fun _ => (Tame.ofExcept _).bind fun _ => .pure _
  · exact resolveClass_local _
  · exact .fail _

theorem push_leavesArrays (v : Value) : LeavesArrays (push v) :=
  LeavesArrays.of_ok fun _ _ => ⟨(), _, rfl, rfl, rfl⟩

theorem invokeOnArray_local (h : Handle) (ref : MemberRef) : Local (invokeOnArray h ref) := by
  refine ⟨invokeOnArray_keeps h ref, Tame.stops (R := Machine.SameArrays) ?_⟩
  have made {heap next : Heap} {copy : Handle} (cloned : heap.cloneArray h = .ok (copy, next)) :
      ∃ e reserved, heap.insert e reserved = .ok (copy, next) := by
    obtain ⟨a, -, inserted⟩ := Heap.cloneArray_ok cloned
    exact ⟨_, _, inserted⟩
  unfold invokeOnArray
  dsimp only
  split
  · refine .bind (Tame.bind (f := fun _ => pure ()) pop_leavesArrays fun _ => .pure ()) fun _ => ?_
    refine (orOutOfMemory_leavesArrays (allocate_leavesArrays made)).bind fun copy => ?_
    split
    · exact push_leavesArrays _
    · exact .pure _
  · exact .fail _

/-! ## What a search raises -/

theorem resolveClass_none {name : String} (h : resolveClass name s m = .ok none m') :
    m'.thread.pending ≠ none := by
  rw [resolveClass, bind_of_ok library_run] at h
  cases found : m.world.library.find? name with
  | some c =>
      simp only [found] at h
      cases h
  | none =>
      simp only [found] at h
      obtain ⟨_, _, raised, h⟩ := bind_eq_ok h
      cases h
      exact raise_pending raised

theorem resolveMethod_none (h : resolveMethod ref s m = .ok none m') :
    m'.thread.pending ≠ none := by
  rw [resolveMethod, bind_of_ok library_run] at h
  cases found : m.world.library.resolveMethod ref.className ref.name ref.descriptor with
  | some decl =>
      simp only [found] at h
      cases h
  | none =>
      simp only [found] at h
      obtain ⟨_, _, raised, h⟩ := bind_eq_ok h
      cases h
      exact raise_pending raised

theorem receiverClass_none {v : Value} (h : receiverClass v s m = .ok none m') :
    m'.thread.pending ≠ none := by
  unfold receiverClass at h
  split at h
  · obtain ⟨_, _, raised, h⟩ := bind_eq_ok h
    cases h
    exact raise_pending raised
  · rw [bind_of_ok heap_run] at h
    obtain ⟨_, _, -, h⟩ := bind_eq_ok h
    cases h
  · exact resolveClass_none h
  · cases h

theorem resolveMethod_found {decl : MethodDecl} (h : resolveMethod ref s m = .ok (some decl) m') :
    decl.name = ref.name ∧ decl.descriptor = ref.descriptor := by
  rw [resolveMethod, bind_of_ok library_run] at h
  cases found : m.world.library.resolveMethod ref.className ref.name ref.descriptor with
  | some decl =>
      simp only [found] at h
      cases h
      exact Library.resolveMethod_named found
  | none =>
      simp only [found] at h
      obtain ⟨_, _, -, h⟩ := bind_eq_ok h
      cases h

theorem frame_ok {f : Frame} (h : frame s m = .ok f m') : m' = m := by
  rw [frame, bind_of_ok thread_run] at h
  exact (ofExcept_eq_ok h).2

theorem peek_ok {n : Nat} {v : Value} (h : peek n s m = .ok v m') : m' = m := by
  rw [peek, bind_of_ok thread_run] at h
  exact (ofExcept_eq_ok h).2

theorem receiver_ok {v : Value} (h : receiver ref s m = .ok v m') : m' = m := by
  unfold receiver at h
  obtain ⟨type, mid, parsed, h⟩ := bind_eq_ok h
  rw [(ofExcept_eq_ok parsed).2] at h
  exact peek_ok h

/-! ## The course of an instruction that calls -/

/-- What an instruction comes to that calls a method of its choice, in whatever host it runs. -/
inductive Course (chosen : Machine → MethodDecl → Prop) (x : Host → Exec Unit) (s : Settings)
    (m : Machine) : Prop
  /-- It invokes a method. -/
  | invokes {mid : Machine} {cls : LoadedClass} {decl : MethodDecl} :
      m.Within mid → chosen mid decl →
      (∀ host, x host s m = Functor.discard (invoke host cls decl) s mid) → Course chosen x s m
  /-- It raises an exception. -/
  | raises {m' : Machine} : m.Within m' → m'.thread.pending ≠ none →
      (∀ host, x host s m = .ok () m') → Course chosen x s m
  /-- It stops in a fault. -/
  | fails {e : Fault} {m' : Machine} : m.Within m' →
      (∀ host, x host s m = .error (.fault e) m') → Course chosen x s m

namespace Course

variable {chosen : Machine → MethodDecl → Prop} {x : Exec α} {f : α → Host → Exec Unit}

/-- What begins with a computation within the frame goes on as what comes behind it does. -/
theorem bind (hx : Local x)
    (rest : ∀ a mid, x s m = .ok a mid → m.Within mid → Course chosen (f a) s mid) :
    Course chosen (fun host => x >>= fun a => f a host) s m := by
  cases run : x s m with
  | error stop mid =>
      obtain ⟨e, rfl⟩ := hx.stops run
      exact .fails (hx.keeps.of_error run) fun host => bind_of_error run
  | ok a mid =>
      have first : m.Within mid := hx.keeps.of_ok run
      cases rest a mid run first with
      | invokes within choice goes =>
          exact .invokes (IsTrans.trans _ _ _ first within) choice fun host =>
            (bind_of_ok run).trans (goes host)
      | raises within pending ends =>
          exact .raises (IsTrans.trans _ _ _ first within) pending fun host =>
            (bind_of_ok run).trans (ends host)
      | fails within ends =>
          exact .fails (IsTrans.trans _ _ _ first within) fun host =>
            (bind_of_ok run).trans (ends host)

theorem mono {chosen' : Machine → MethodDecl → Prop} {x : Host → Exec Unit}
    (c : Course chosen x s m) (sub : ∀ mid decl, chosen mid decl → chosen' mid decl) :
    Course chosen' x s m := by
  cases c with
  | invokes within choice goes => exact .invokes within (sub _ _ choice) goes
  | raises within pending ends => exact .raises within pending ends
  | fails within ends => exact .fails within ends

theorem fail (e : Fault) : Course chosen (fun _ => Exec.fail e) s m :=
  .fails (Std.Refl.refl m) fun _ => rfl

theorem raised (pending : m.thread.pending ≠ none) : Course chosen (fun _ => pure ()) s m :=
  .raises (Std.Refl.refl m) pending fun _ => rfl

theorem raise (className : String) (message : Option String) [Throwable.Raised className] :
    Course chosen (fun _ => Exec.raise className message) s m := by
  cases run : Exec.raise className message s m with
  | ok a m' =>
      exact .raises ((raise_local className message).keeps.of_ok run) (raise_pending run)
        fun _ => run
  | error stop m' =>
      obtain ⟨e, rfl⟩ := (raise_local className message).stops run
      exact .fails ((raise_local className message).keeps.of_error run) fun _ => run

theorem invokeDeclared {decl : MethodDecl} (choice : chosen m decl) :
    Course chosen (fun host => Exec.invokeDeclared host decl) s m :=
  bind (findClass_local _) fun cls mid looked within =>
    .invokes (Std.Refl.refl mid) (by rwa [(findClass_ok looked).1]) fun _ => rfl

end Course

/-! ## The method that is called -/

/-- A method suits a reference: it is an instance method of the name and descriptor, and a frame for
it is entered with exactly the receiver and the arguments taken off the stack. -/
structure Suits (ref : MemberRef) (s : Settings) (m : Machine) (decl : MethodDecl) : Prop where
  /-- It is an instance method. -/
  belongs : decl.flags.isStatic = false
  /-- The name is that of the reference. -/
  name : decl.name = ref.name
  /-- The descriptor is that of the reference. -/
  descriptor : decl.descriptor = ref.descriptor
  /-- The types of the arguments are those that the descriptor of the reference stands for. -/
  typed : MethodType.parse ref.descriptor = .ok decl.type
  /-- The receiver and the arguments are there, and nothing else is taken. -/
  takes : ∀ {host : Host} {cls : LoadedClass} {m' : Machine},
    invoke host cls decl s m = .ok true m' →
    decl.type.args.length + 1 ≤ m.thread.operandDepth ∧
      m'.operands = m.operands.take (m.operands.length - (decl.type.args.length + 1)) ∧
      ∃ f, m'.frames = f :: m.frames ∧ f.method = decl

theorem pushFrame_room {cls : LoadedClass} {decl : MethodDecl}
    (h : pushFrame cls decl s m = .ok () m') : decl.argCount ≤ m.thread.operandDepth := by
  rw [pushFrame, bind_of_ok thread_run] at h
  split at h
  · cases h
  next enough => exact Nat.le_of_not_lt enough

/-- A call that enters a frame takes as many operands as the method has arguments. -/
theorem invoke_takes {host : Host} {cls : LoadedClass} {decl : MethodDecl}
    (h : invoke host cls decl s m = .ok true m') :
    decl.argCount ≤ m.thread.operandDepth ∧
      m'.operands = m.operands.take (m.operands.length - decl.argCount) ∧
      ∃ f, m'.frames = f :: m.frames ∧ f.method = decl := by
  cases invoke_cases h with
  | @entered mid _ _ locked _ framed =>
      have sameThread : m.SameThread mid := (callMonitor_keeps cls decl).of_ok locked
      obtain ⟨f, below, sameFrames, operands, enters, method, -⟩ := enterFrame_ok framed
      obtain ⟨_, _, pushed, -⟩ := bind_eq_ok framed
      have room := pushFrame_room pushed
      obtain ⟨_, pushes, same⟩ := enters.pushes
      rw [sameThread.sameStacks.operands] at operands
      rw [sameThread.thread] at room
      refine ⟨room, ?_, f, ?_, method⟩
      · rw [same]
        exact pushes.operands.trans operands
      · rw [same]
        exact pushes.frames.trans
          (congrArg (f :: ·) (sameFrames.frames_eq.trans sameThread.sameStacks.frames))

/-- A method that an instruction takes for a reference has its name and its descriptor.  It suits
the reference, or it is static and found in a place at which the instruction does not look at
this. -/
structure Chosen (unchecked : MethodDecl → Prop) (ref : MemberRef) (s : Settings) (m : Machine)
    (decl : MethodDecl) : Prop where
  /-- The name is that of the reference. -/
  name : decl.name = ref.name
  /-- The descriptor is that of the reference. -/
  descriptor : decl.descriptor = ref.descriptor
  /-- A method that does not suit the reference is static and found in such a place. -/
  suits : Suits ref s m decl ∨ decl.flags.isStatic = true ∧ unchecked decl

theorem Suits.of_named {decl : MethodDecl} (belongs : decl.flags.isStatic = false)
    (named : decl.name = ref.name ∧ decl.descriptor = ref.descriptor) : Suits ref s m decl := by
  have count : decl.argCount = decl.type.args.length + 1 := by
    rw [MethodDecl.argCount, MethodDecl.receiverCount, belongs]
    rfl
  refine ⟨belongs, named.1, named.2, named.2 ▸ decl.typed, fun entered => ?_⟩
  rw [← count]
  exact invoke_takes entered

theorem Chosen.of_named {unchecked : MethodDecl → Prop} {decl : MethodDecl}
    (named : decl.name = ref.name ∧ decl.descriptor = ref.descriptor)
    (found : decl.flags.isStatic = true → unchecked decl) : Chosen unchecked ref s m decl := by
  refine ⟨named.1, named.2, ?_⟩
  cases static : decl.flags.isStatic with
  | true => exact .inr ⟨rfl, found static⟩
  | false => exact .inl (.of_named static named)

theorem Chosen.mono {unchecked unchecked' : MethodDecl → Prop} {decl : MethodDecl}
    (h : Chosen unchecked ref s m decl) (sub : unchecked decl → unchecked' decl) :
    Chosen unchecked' ref s m decl :=
  ⟨h.name, h.descriptor, h.suits.imp_right (And.imp_right sub)⟩

end Exec

/-! ## The three instructions -/

/-- The instructions that call a method on an object. -/
inductive CallKind where
  | virtual
  | special
  | interface
  deriving DecidableEq

namespace CallKind

open Exec

/-- What the instruction does. -/
def instruction : CallKind → Host → Exec Unit
  | .virtual => invokeVirtual
  | .special => invokeSpecial
  | .interface => invokeInterface

/-- What the instruction reads from the code. -/
def reference : CallKind → Exec MemberRef
  | .virtual | .special => readMethodRef
  | .interface => do
      let ref ← readMethodRef
      discard readU8
      discard readU8
      return ref

/-- The places at which the instruction does not look whether the method that it has found is
static.  A call on the receiver falls back to the superinterfaces of its class: a virtual one if its
reference means an instance method that is not private, an interface one if the receiver is an
instance of the class that its reference names.  A special call that means an instance method starts
again above the current class. -/
inductive Unchecked (ref : MemberRef) (s : Settings) (m : Machine) :
    CallKind → MethodDecl → Prop
  | virtual {v : Value} {c : LoadedClass} {meant decl : MethodDecl} :
      receiver ref s m = .ok v m → receiverClass v s m = .ok (some c) m →
      resolveMethod ref s m = .ok (some meant) m → meant.flags.isStatic = false →
      meant.flags.isPrivate = false →
      m.world.library.FallsBack c ref.name ref.descriptor decl → Unchecked ref s m .virtual decl
  | interface {v : Value} {c : LoadedClass} {decl : MethodDecl} :
      receiver ref s m = .ok v m → receiverClass v s m = .ok (some c) m →
      m.world.library.isSubclass c.name ref.className = true →
      m.world.library.FallsBack c ref.name ref.descriptor decl → Unchecked ref s m .interface decl
  | special {f : Frame} {meant decl : MethodDecl} :
      frame s m = .ok f m → resolveMethod ref s m = .ok (some meant) m →
      meant.flags.isStatic = false →
      m.world.library.Restarts f.cls ref.className meant decl → Unchecked ref s m .special decl

/-- The instruction copies an array, which takes no method. -/
def Copies (ref : MemberRef) (s : Settings) (m : Machine) (kind : CallKind) : Prop :=
  kind = .virtual ∧ (∃ h, receiver ref s m = .ok (.array h) m) ∧
    (ref.className = objectName ∨ ref.className.startsWith "[" = true) ∧ ref.name = "clone" ∧
      ref.descriptor = "()Ljava/lang/Object;"

end CallKind

namespace Exec

variable {s : Settings} {m mid : Machine} {ref : MemberRef} {chosen : Machine → MethodDecl → Prop}

/-- A call on the receiver runs an instance method, or a method to which it falls back. -/
theorem dispatch_course {cls : LoadedClass} :
    Course (fun mid decl => mid = m ∧
      Chosen (m.world.library.FallsBack cls ref.name ref.descriptor) ref s m decl)
      (fun host => dispatch host cls ref) s m := by
  refine Course.bind library_local fun lib mid read _ => ?_
  cases read
  cases found : m.world.library.findVirtual cls ref.name ref.descriptor with
  | none => exact .raise _ _
  | some decl =>
      refine .invokeDeclared ⟨rfl, .of_named (Library.findVirtual_named found) fun static => ?_⟩
      obtain chain | back := Library.findVirtual_eq_some_iff.mp found
      · obtain ⟨d, -, own⟩ := List.exists_of_findSome?_eq_some chain
        have belongs := (Option.filter_eq_some_iff.mp own).2
        rw [static] at belongs
        cases belongs
      · exact back

/-- A special call runs an instance method, or a method above the current class at which it starts
again. -/
theorem invokeSpecial_course :
    Course (fun mid decl => ∃ ref, readMethodRef s m = .ok ref mid ∧
      Chosen (CallKind.special.Unchecked ref s mid) ref s mid decl) invokeSpecial s m := by
  refine Course.bind readMethodRef_local fun ref mid read _ => ?_
  refine Course.bind (resolveMethod_local ref) fun found _ resolved _ => ?_
  cases found with
  | none => exact .raised (resolveMethod_none resolved)
  | some found =>
      cases resolveMethod_some resolved
      have named := resolveMethod_found resolved
      cases belongs : found.flags.isStatic with
      | true =>
          simp only [belongs, if_true]
          exact .raise _ _
      | false =>
          simp only [belongs, Bool.false_eq_true, if_false]
          refine Course.bind frame_local fun f _ current _ => ?_
          cases frame_ok current
          refine Course.bind library_local fun lib _ known _ => ?_
          cases known
          cases selected : mid.world.library.selectSpecial f.cls ref.className found with
          | none => exact .raise _ _
          | some decl =>
              refine Course.bind (peek_local _) fun v _ peeked _ => ?_
              cases peek_ok peeked
              cases null : v.isNull with
              | true =>
                  simp only [if_true]
                  exact .raise _ _
              | false =>
                  simp only [Bool.false_eq_true, if_false]
                  refine .invokeDeclared ⟨ref, read, ?_⟩
                  obtain ⟨-, rfl⟩ | again := Library.selectSpecial_eq_some_iff.mp selected
                  · refine .of_named named fun static => ?_
                    rw [belongs] at static
                    cases static
                  · obtain ⟨name, descriptor⟩ := again.named
                    refine .of_named ⟨name.trans named.1, descriptor.trans named.2⟩ fun _ => ?_
                    exact .special current resolved belongs again

/-- What the instructions that look at the receiver do with it. -/
theorem receiver_course {v : Value} {f : LoadedClass → Host → Exec Unit}
    (rest : ∀ cls, receiverClass v s m = .ok (some cls) m → Course chosen (f cls) s m) :
    Course chosen (fun host => do
      match ← receiverClass v with
      | none => pure ()
      | some cls => f cls host) s m := by
  refine Course.bind (receiverClass_local v) fun cls _ found _ => ?_
  cases cls with
  | none => exact .raised (receiverClass_none found)
  | some cls =>
      cases receiverClass_some found
      exact rest cls found

/-- An array that is not copied answers to nothing. -/
theorem invokeOnArray_course {h : Handle} (found : receiver ref s m = .ok (.array h) m)
    (other : ¬ CallKind.virtual.Copies ref s m) :
    Course chosen (fun _ => invokeOnArray h ref) s m := by
  have copies : ¬ ((ref.className == objectName || ref.className.startsWith "[") &&
      (ref.name == "clone" && ref.descriptor == "()Ljava/lang/Object;")) = true := by
    intro same
    rw [Bool.and_eq_true, Bool.and_eq_true, Bool.or_eq_true, beq_iff_eq, beq_iff_eq,
      beq_iff_eq] at same
    exact other ⟨rfl, ⟨h, found⟩, same⟩
  unfold invokeOnArray
  dsimp only
  rw [if_neg copies]
  exact .fail _

/-- An array is copied without a call, or there is no memory for the copy. -/
theorem invokeVirtual_copies (read : readMethodRef s m = .ok ref mid)
    (copies : CallKind.virtual.Copies ref s mid) :
    Course chosen invokeVirtual s m ∨ ∃ m', m.Within m' ∧ m'.thread.pending = none ∧
      ∀ host, invokeVirtual host s m = .ok () m' := by
  obtain ⟨-, ⟨h, found⟩, -⟩ := copies
  have goes (host : Host) : invokeVirtual host s m = invokeOnArray h ref s mid := by
    rw [invokeVirtual, bind_of_ok read, bind_of_ok found]
  have within : m.Within mid := readMethodRef_local.keeps.of_ok read
  cases copied : invokeOnArray h ref s mid with
  | error stop m' =>
      obtain ⟨e, rfl⟩ := (invokeOnArray_local h ref).stops copied
      have kept := (invokeOnArray_local h ref).keeps.of_error copied
      exact .inl (.fails (IsTrans.trans _ _ _ within kept) fun host => (goes host).trans copied)
  | ok _ m' =>
      have kept := IsTrans.trans _ _ _ within ((invokeOnArray_local h ref).keeps.of_ok copied)
      by_cases raised : m'.thread.pending = none
      · exact .inr ⟨m', kept, raised, fun host => (goes host).trans copied⟩
      · exact .inl (.raises kept raised fun host => (goes host).trans copied)

/-- A virtual call that does not copy an array runs an instance method, or a method to which it
falls back. -/
theorem invokeVirtual_course
    (other : ∀ ref mid, readMethodRef s m = .ok ref mid → ¬ CallKind.virtual.Copies ref s mid) :
    Course (fun mid decl => ∃ ref, readMethodRef s m = .ok ref mid ∧
      Chosen (CallKind.virtual.Unchecked ref s mid) ref s mid decl) invokeVirtual s m := by
  refine Course.bind readMethodRef_local fun ref mid read _ => ?_
  refine Course.bind (receiver_local ref) fun v _ found _ => ?_
  cases receiver_ok found
  cases v with
  | array h => exact invokeOnArray_course found (other ref mid read)
  | _ =>
      refine receiver_course fun cls known => ?_
      refine Course.bind (resolveMethod_local ref) fun means _ resolved _ => ?_
      cases means with
      | none => exact .raised (resolveMethod_none resolved)
      | some meant =>
          cases resolveMethod_some resolved
          cases belongs : meant.flags.isStatic with
          | true =>
              simp only [belongs, if_true]
              exact .raise _ _
          | false =>
              simp only [belongs, Bool.false_eq_true, if_false]
              cases hidden : meant.flags.isPrivate with
              | true =>
                  simp only [if_true]
                  refine .invokeDeclared ⟨ref, read, .of_named (resolveMethod_found resolved) ?_⟩
                  intro static
                  rw [belongs] at static
                  cases static
              | false =>
                  simp only [Bool.false_eq_true, if_false]
                  refine dispatch_course.mono ?_
                  rintro _ decl ⟨rfl, chosen⟩
                  exact ⟨ref, read, chosen.mono (.virtual found known resolved belongs hidden)⟩

/-- An interface call runs an instance method, or a method to which it falls back. -/
theorem invokeInterface_course :
    Course (fun mid decl => ∃ ref, CallKind.interface.reference s m = .ok ref mid ∧
      Chosen (CallKind.interface.Unchecked ref s mid) ref s mid decl) invokeInterface s m := by
  refine Course.bind readMethodRef_local fun ref mid read _ => ?_
  refine Course.bind (readU8_local.discard) fun _ _ first _ => ?_
  refine Course.bind (readU8_local.discard) fun _ last second _ => ?_
  have readAll : CallKind.interface.reference s m = .ok ref last := by
    rw [CallKind.reference, bind_of_ok read, bind_of_ok first, bind_of_ok second]
    rfl
  refine Course.bind (receiver_local ref) fun v _ found _ => ?_
  cases receiver_ok found
  cases v with
  | array h => exact .fail _
  | _ =>
      refine receiver_course fun cls known => ?_
      refine Course.bind library_local fun lib _ looked _ => ?_
      cases looked
      cases below : last.world.library.isSubclass cls.name ref.className with
      | false =>
          simp only [Bool.false_eq_true, if_false]
          exact .raise _ _
      | true =>
          simp only [if_true]
          refine dispatch_course.mono ?_
          rintro _ decl ⟨rfl, chosen⟩
          exact ⟨ref, readAll, chosen.mono (.interface found known below)⟩

end Exec

/-- Instance dispatch selects instance methods, whatever the library.  An instruction that calls a
method on an object either invokes a method of the name and the descriptor of the reference that it
has read; or it ends in an exception of the guest or in a fault, and runs no method; or it copies an
array, and runs no method either.  The method that it invokes is an instance method for which
exactly the receiver and the arguments are taken off the stack, unless it is a static one of which
the instruction does not ask whether it is. -/
theorem CallKind.selects_instance (kind : CallKind) {s : Settings} {m : Machine} :
    Exec.Course (fun mid decl => ∃ ref, kind.reference s m = .ok ref mid ∧
      Exec.Chosen (kind.Unchecked ref s mid) ref s mid decl) kind.instruction s m ∨
    ∃ ref mid m', kind.reference s m = .ok ref mid ∧ kind.Copies ref s mid ∧ m.Within m' ∧
      m'.thread.pending = none ∧ ∀ host, kind.instruction host s m = .ok () m' := by
  cases kind with
  | special => exact .inl Exec.invokeSpecial_course
  | interface => exact .inl Exec.invokeInterface_course
  | virtual =>
      by_cases copying : ∃ ref mid, Exec.readMethodRef s m = .ok ref mid ∧
          CallKind.virtual.Copies ref s mid
      · obtain ⟨ref, mid, read, copies⟩ := copying
        exact (Exec.invokeVirtual_copies read copies).imp_right fun ⟨m', copied⟩ =>
          ⟨ref, mid, m', read, copies, copied⟩
      · exact .inl (Exec.invokeVirtual_course fun ref mid read copies =>
          copying ⟨ref, mid, read, copies⟩)

namespace Sample

/-- The method of an interface. -/
def faced (name : String) (flags : UInt16) : MethodDecl :=
  { method [0xb1] [] with flags := ⟨flags⟩, className := name }

/-- An interface with one method. -/
def face (name : String) (flags : UInt16) : LoadedClass :=
  { general with name, methods := [faced name flags] }

/-- The class of the caller, which has a reference to a method. -/
def referrer (called : Constant) : LoadedClass :=
  { cls with pool := #[.empty, called], id := 2 }

/-- A thread that has just fetched a call of that method, with a receiver on the stack. -/
def onCall (called : Constant) (code : List UInt8) (receiver : Value) : Thread where
  id := 0
  frames := [{ frame code [] 0 with cls := referrer called, pc := 1 }]
  operands := #[⟨receiver, 0⟩]
  depths := [1]
  deepest := 1

/-- A machine in front of an interface call on an object of a class that implements interfaces. -/
def facing (faces : List LoadedClass) : Machine where
  world :=
    { library := ⟨implementer (faces.map (·.name)) :: faces⟩
      heap :=
        { cells := #[some ⟨0, .object (implementer (faces.map (·.name))) []⟩], live := 1
          made := 1 } }
  thread :=
    onCall (.interfaceMethod ⟨"I", "m", "()V"⟩) [0xb9, 0x00, 0x01, 0x01, 0x00, 0xb1] (.object ⟨0⟩)

/-- A machine whose object has a default method, with a static one in an interface behind it. -/
def facingBoth : Machine := facing [face "I" 0x0001, face "J" 0x0009]

/-- A machine whose object has only a static method. -/
def facingStatic : Machine := facing [face "I" 0x0009]

/-- A machine in front of a virtual call on an array. -/
def copying : Machine where
  world := { heap := { cells := #[some ⟨0, .array ⟨"[I", .int, #[]⟩⟩], live := 1, made := 1 } }
  thread :=
    onCall (.method ⟨objectName, "clone", "()Ljava/lang/Object;"⟩) [0xb6, 0x00, 0x01, 0xb1]
      (.array ⟨0⟩)

end Sample

/-- The default method that the search answers suits the reference, although an interface further on
has a static method of the same name and descriptor.  It takes the receiver off the stack. -/
theorem CallKind.selects_instance_default :
    Exec.Course (fun mid decl => ∃ ref,
      interface.reference {} Sample.facingBoth = .ok ref mid ∧ Exec.Suits ref {} mid decl)
      interface.instruction {} Sample.facingBoth ∧
    ∃ m' : Machine, (∀ host, interface.instruction host {} Sample.facingBoth = .ok () m') ∧
      m'.operands = [] ∧ m'.frames.map Frame.method =
        Sample.faced "I" 0x0001 :: Sample.facingBoth.frames.map Frame.method := by
  refine ⟨?_, _, fun _ => rfl, rfl, rfl⟩
  obtain course | ⟨_, _, _, -, ⟨other, -⟩, -⟩ :=
    interface.selects_instance (s := {}) (m := Sample.facingBoth)
  · refine course.mono ?_
    rintro mid decl ⟨ref, read, chosen⟩
    refine ⟨ref, read, chosen.suits.resolve_right ?_⟩
    rintro ⟨static, unchecked⟩
    cases read
    cases unchecked with
    | interface found known below back =>
        cases found
        cases known
        cases back.first
        cases static
  · cases other

/-- Two calls that are none of an instance method.  The one of `clone` on an array ends with a copy
on the stack, and no method runs.  The other one runs a static method of an interface, as if it were
an instance method; it takes no operand, so the receiver stays on the stack. -/
theorem CallKind.selects_otherwise :
    (∃ m' : Machine, (∀ host, virtual.instruction host {} Sample.copying = .ok () m') ∧
      m'.thread.pending = none ∧ m'.operands.map Operand.value = [.array ⟨1⟩] ∧
      m'.frames.map Frame.method = Sample.copying.frames.map Frame.method) ∧
    ∃ m' : Machine, (∀ host, interface.instruction host {} Sample.facingStatic = .ok () m') ∧
      m'.thread.pending = none ∧ m'.operands = Sample.facingStatic.operands ∧
      m'.frames.map Frame.method =
        Sample.faced "I" 0x0009 :: Sample.facingStatic.frames.map Frame.method ∧
      (Sample.faced "I" 0x0009).flags.isStatic = true :=
  ⟨⟨_, fun _ => rfl, rfl, rfl, rfl⟩, _, fun _ => rfl, rfl, rfl, rfl, rfl⟩

end JavaMachine
