import JavaMachine.Demo
import JavaMachine.Proofs.FieldTypes
import JavaMachine.Proofs.Forward
import JavaMachine.Proofs.Initialisation
import JavaMachine.Proofs.Raising
import JavaMachine.Proofs.Switches
import Mathlib.Data.Nat.Factorial.Basic

/-!
# The demonstration computes factorials

The class of the demonstration has a method that calls itself.  This module follows its runs from
the set-up of the machine to the value or the exception that a call of the method comes to.

*The stage.*  All that the method asks of the machine is that its class is known and can be brought
into use, that there is memory for an exception, and that nothing hinders a run
(`Machine.Staged`).  A machine plays when its frames are activations of the method
(`Machine.Plays`), and every instruction of the method leads from a machine that plays to another
one (`Exec.Leads`).

*Descent and return.*  An activation for a number above one comes to its call after seven
instructions.  By induction on the number, the activation below finds the factorial of the number
below on top, multiplies and returns (`Exec.leads_factorial`).  By induction on the room that is
left, the activations come to a call for which there is none, and all of them are left
(`Exec.reaches_overflow`).

*The set-up.*  Registering classes brings none of them into use, so a machine in which nothing was
done is on the stage behind it (`Demo.staged`).
-/

namespace JavaMachine

/-! ## The class -/

namespace Demo

/-- The method as it is declared. -/
def fact : MethodDecl where
  name := "fact"
  descriptor := "(I)I"
  flags := ⟨0x0009⟩
  className := "Factorial"
  type := ⟨[.int], .int⟩
  typed := by decide
  maxStack := 16
  maxLocals := 1
  code := ⟨#[0x1a, 0x04, 0xa3, 0x00, 0x05, 0x04, 0xac, 0x1a, 0x1a, 0x04, 0x64,
             0xb8, 0x00, 0x01, 0x68, 0xac]⟩
  handlers := []

/-- The class as it is declared. -/
def declared : ClassDecl where
  name := "Factorial"
  superName := some objectName
  interfaces := []
  flags := ⟨0x0021⟩
  pool := #[.empty, .method ⟨"Factorial", "fact", "(I)I"⟩]
  methods := [fact]
  fields := []

theorem factorial_build : factorial.build = .ok declared := by with_unfolding_all rfl

/-- The class at its place in the library. -/
def classAt (id : Nat) : LoadedClass := { declared with id }

/-- An activation of the method for a number. -/
def activation (id : Nat) (n : Int32) (base pc instructionPc : Nat) : Frame where
  cls := classAt id
  method := fact
  pc
  instructionPc
  locals := #[.int n]
  stackBase := base

theorem fact_interpreted : Exec.Interpreted fact := ⟨rfl, rfl, rfl⟩

end Demo

/-! ## Classes without initialisers -/

/-- No class has failed, and none is being initialised by another thread. -/
def Machine.Available (m : Machine) : Prop :=
  ∀ id, m.world.initState id = .uninitialised ∨ m.Usable id

/-- Classes were brought into use, and nothing else was done. -/
structure Machine.Enables (m m' : Machine) : Prop where
  /-- Only the states of classes have changed, and what is kept about the past. -/
  rest : ∃ events history classStates,
    m' = { m with world := { m.world with events, history, classStates } }
  /-- The classes stay available. -/
  available : m.Available → m'.Available

namespace Machine.Enables

variable {m m' m'' : Machine}

theorem refl (m : Machine) : m.Enables m := ⟨⟨_, _, _, rfl⟩, id⟩

theorem trans (first : m.Enables m') (second : m'.Enables m'') : m.Enables m'' := by
  obtain ⟨events, history, classStates, rfl⟩ := first.rest
  obtain ⟨events', history', classStates', rfl⟩ := second.rest
  exact ⟨⟨events', history', classStates', rfl⟩, second.available ∘ first.available⟩

/-- A class is claimed by the thread, or its initialisation ends. -/
theorem moving {i : InitState} (own : i = .initialising m.thread.id ∨ i = .initialised) (id : Nat)
    (events : Array Event) :
    m.Enables { m with world := { m.world.moving id i with events } } := by
  refine ⟨⟨_, _, _, rfl⟩, fun available other => ?_⟩
  have state := m.world.initState_moving id i other
  by_cases moved : id = other ∧ id < m.world.classStates.size
  · rw [if_pos moved] at state
    exact .inr (own.symm.imp state.trans state.trans)
  · rw [if_neg moved] at state
    exact (available other).imp state.trans (.imp state.trans state.trans)

end Machine.Enables

namespace Exec

variable {host : Host} {s : Settings} {m : Machine} {c : LoadedClass}

/-- A class becomes usable when the initialisers behind its claim do nothing but bring classes into
use. -/
theorem ensureInitialisedWithin_enables (host : Host) (s : Settings) (n : Nat)
    (available : m.Available)
    (above : ∀ a, m.Enables a → ∃ b, initialisers host n c s a = .ok true b ∧ a.Enables b) :
    ∃ m', ensureInitialisedWithin host (n + 1) c s m = .ok true m' ∧ m.Enables m' := by
  obtain fresh | usable := available c.id
  · have claimed : m.Enables
        { m with world := m.world.moving c.id (.initialising m.thread.id) } :=
      .moving (.inl rfl) c.id m.world.events
    obtain ⟨b, run, enables⟩ := above _ claimed
    obtain ⟨events, finished⟩ := finishing_run (s := s) (m := b) c (.ok true)
    refine ⟨_, (ensureInitialisedWithin_fresh n fresh).trans
      ((bind_of_ok (attempt_of_ok run)).trans finished), ?_⟩
    exact (claimed.trans enables).trans (.moving (.inr rfl) c.id events)
  · exact ⟨m, ensureInitialisedWithin_usable n usable, .refl m⟩

end Exec

/-! ## The stage -/

/-- The machine is ready for the demonstration.  Its class is known, and so are those that it
needs. -/
structure Machine.Staged (m : Machine) (id : Nat) : Prop extends m.Unhindered where
  /-- The class is known. -/
  known : m.world.library.find? "Factorial" = some (Demo.classAt id)
  /-- The topmost class is known and has no initialiser. -/
  object : ∃ c, m.world.library.find? objectName = some c ∧ c.superName = none ∧
    c.method? "<clinit>" "()V" = none
  /-- There is memory for exceptions. -/
  ample : m.world.Ample
  /-- The classes can be brought into use. -/
  available : m.Available
  /-- No exception is pending. -/
  clear : m.thread.pending = none
  /-- There is no thread object. -/
  alone : m.thread.threadObject = none

/-- A machine on the stage, in the outermost run of its thread, with activations of the method only
and some operands. -/
structure Machine.Plays (m : Machine) (id : Nat) (frames : List Frame) (operands : Array Operand) :
    Prop extends m.Staged id where
  /-- The frames. -/
  current : m.thread.frames = frames
  /-- They are activations of the method. -/
  methods : ∀ f ∈ frames, f.method = Demo.fact
  /-- The operands. -/
  held : m.thread.operands = operands
  /-- All frames are of one run. -/
  depths : m.thread.depths = [frames.length]
  /-- It is the outermost one. -/
  level : m.thread.level = 1

namespace Machine.Staged

variable {m m' : Machine} {id : Nat}

theorem enabled (h : m.Staged id) (enables : m.Enables m') : m'.Staged id := by
  obtain ⟨events, history, classStates, rfl⟩ := enables.rest
  exact { h with available := enables.available h.available, ample := { h.ample with } }

theorem budget (h : m.Staged id) : ∃ k, m.world.library.budget = k + 1 := by
  have known := h.known
  cases classes : m.world.library.classes with
  | nil =>
      rw [Library.find?, classes] at known
      cases known
  | cons c cs => exact ⟨cs.length, by rw [Library.budget, classes, List.length_cons]⟩

/-- The method is the one that its reference means. -/
theorem resolves (h : m.Staged id) :
    m.world.library.resolveMethod "Factorial" "fact" "(I)I" = some Demo.fact := by
  obtain ⟨k, budget⟩ := h.budget
  rw [Library.resolveMethod, Library.chain, budget, Library.chainWithin, h.known]
  rfl

/-- The class is brought into use, and the one above it. -/
theorem initialises (h : m.Staged id) (host : Host) (s : Settings) :
    ∃ b, Exec.ensureInitialised host (Demo.classAt id) s m = .ok true b ∧ m.Enables b := by
  obtain ⟨k, budget⟩ := h.budget
  rw [Exec.ensureInitialised, Exec.bind_of_ok Exec.library_run, budget]
  refine Exec.ensureInitialisedWithin_enables host s (k + 1) h.available fun a enables => ?_
  have staged := h.enabled enables
  obtain ⟨c, known, top, plain⟩ := staged.object
  obtain ⟨b, above, enables'⟩ := Exec.ensureInitialisedWithin_enables host s k
    (c := c) staged.available fun b _ => ⟨b, by
      rw [Exec.initialisers, Exec.bind_of_ok Exec.library_run, top]
      exact Exec.runInitialiser_none plain, .refl b⟩
  refine ⟨b, ?_, enables'⟩
  have super : (Demo.classAt id).superName.bind a.world.library.find? = some c := known
  have own : Exec.runInitialiser host (Demo.classAt id) s b = .ok true b :=
    Exec.runInitialiser_none rfl
  rw [Exec.initialisers, Exec.bind_of_ok Exec.library_run, super]
  exact (Exec.bind_of_ok above).trans own

end Machine.Staged

namespace Machine.Plays

variable {m : Machine} {id : Nat} {f : Frame} {rest frames : List Frame} {operands : Array Operand}

theorem amid (h : m.Plays id (f :: rest) operands) (operands' : Array Operand)
    (events : Array Event) (pc : Nat) : (m.amid f rest operands' events pc).Plays id
      ({ f with pc, instructionPc := f.pc } :: rest) operands' where
  __ := h
  ample := { h.ample with }
  current := rfl
  methods := List.forall_mem_cons.mpr (List.forall_mem_cons.mp h.methods)
  held := rfl

theorem ticked (h : m.Plays id frames operands) (events : Array Event) (collector : Collector)
    (asked : Nat) : (m.ticked events collector asked).Plays id frames operands where
  __ := h
  ample := { h.ample with }

theorem enabled {m' : Machine} (h : m.Plays id frames operands) (enables : m.Enables m') :
    m'.Plays id frames operands where
  __ := h.toStaged.enabled enables
  current := by obtain ⟨_, _, _, rfl⟩ := enables.rest; exact h.current
  methods := h.methods
  held := by obtain ⟨_, _, _, rfl⟩ := enables.rest; exact h.held
  depths := by obtain ⟨_, _, _, rfl⟩ := enables.rest; exact h.depths
  level := by obtain ⟨_, _, _, rfl⟩ := enables.rest; exact h.level

theorem entered (h : m.Plays id frames operands) (own : f.method = Demo.fact)
    (below : Array Operand) (events : Array Event) :
    (m.entered f below [frames.length + 1] events).Plays id (f :: frames) below where
  __ := h
  ample := { h.ample with }
  current := congrArg (f :: ·) h.current
  methods := List.forall_mem_cons.mpr ⟨own, h.methods⟩
  held := rfl
  depths := rfl

end Machine.Plays

namespace Exec

/-- So many turns lead to a machine with such frames and operands. -/
def Leads (host : Host) (s : Settings) (id : Nat) (turns : Nat) (m : Machine) (frames : List Frame)
    (operands : Array Operand) : Prop :=
  ∃ m', Reaches host 1 s turns m m' ∧ m'.Plays id frames operands

section Turns

variable {host : Host} {s : Settings} {m : Machine} {id : Nat} {frames frames' : List Frame}
  {operands operands' : Array Operand} {a b : Nat}

theorem Leads.append (first : Leads host s id a m frames operands)
    (second : ∀ m', m'.Plays id frames operands → Leads host s id b m' frames' operands') :
    Leads host s id (a + b) m frames' operands' := by
  obtain ⟨m', reaches, plays⟩ := first
  obtain ⟨m'', reaches', plays'⟩ := second m' plays
  exact ⟨m'', reaches.trans reaches', plays'⟩

/-- A turn on the stage is the next instruction and what becomes of the run behind it. -/
theorem turn_plays (host : Host) (s : Settings) (h : m.Plays id frames operands) :
    ∃ b : Machine, b.Plays id frames operands ∧
      turn host 1 s m = (step host >>= settle host 1) s b := by
  obtain ⟨events, collector, asked, run⟩ := turn_unhindered host 1 s h.toUnhindered
  exact ⟨_, h.ticked events collector asked, run⟩

/-- An instruction on the stage is performed behind its first byte. -/
theorem step_plays (host : Host) (s : Settings) {f : Frame} {byte : UInt8}
    (h : m.Plays id (f :: frames) operands) (shown : f.Shows f.pc [byte]) :
    step host s m = perform host (Opcode.ofByte byte) s
      (m.amid f frames operands (m.traced s f byte) (f.pc + 1)) := by
  rw [step, bind_of_ok (fetch_traced h.current shown), h.held]

/-- An instruction after which the run goes on is one turn. -/
theorem leads_of_step (h : m.Plays id frames operands)
    (stepped : ∀ b : Machine, b.Plays id frames operands → ∃ b', step host s b = .ok .next b' ∧
      b'.Plays id frames' operands') : Leads host s id 1 m frames' operands' := by
  obtain ⟨b, plays, run⟩ := turn_plays host s h
  obtain ⟨b', stepped, plays'⟩ := stepped b plays
  refine ⟨b', .round (run.trans ?_), plays'⟩
  rw [bind_of_ok stepped, settle_next plays'.clear]

end Turns

/-! ## Instructions -/

section Instructions

variable (host : Host) (s : Settings) {m : Machine} {id : Nat} {n : Int32} {base pc pc' ipc : Nat}
  {rest : List Frame} {operands below : Array Operand}

/-- An instruction that moves the frame on and works on the operands. -/
theorem leads_plain {byte : UInt8} {x : Exec Unit}
    (h : m.Plays id (Demo.activation id n base pc ipc :: rest) operands)
    (shown : (Demo.activation id n base pc ipc).Shows pc [byte])
    (plain : perform host (Opcode.ofByte byte) = do x; return .next) {operands' : Array Operand}
    (run : ∀ (b : Machine) events,
      x s (b.amid (Demo.activation id n base pc ipc) rest operands events (pc + 1)) =
        .ok () (b.amid (Demo.activation id n base pc ipc) rest operands' events pc')) :
    Leads host s id 1 m (Demo.activation id n base pc' pc :: rest) operands' := by
  refine leads_of_step h fun b plays =>
    ⟨_, ?_, plays.amid operands' (b.traced s (Demo.activation id n base pc ipc) byte) pc'⟩
  rw [step_plays host s plays shown, plain]
  exact bind_of_ok (run b _)

/-- The local variable is pushed. -/
theorem leads_load (h : m.Plays id (Demo.activation id n base pc ipc :: rest) operands)
    (shown : (Demo.activation id n base pc ipc).Shows pc [0x1a]) :
    Leads host s id 1 m (Demo.activation id n base (pc + 1) pc :: rest)
      (operands.push ⟨.int n, pc⟩) :=
  leads_plain host s h shown rfl fun _ _ => rfl

/-- One is pushed. -/
theorem leads_one (h : m.Plays id (Demo.activation id n base pc ipc :: rest) operands)
    (shown : (Demo.activation id n base pc ipc).Shows pc [0x04]) :
    Leads host s id 1 m (Demo.activation id n base (pc + 1) pc :: rest)
      (operands.push ⟨.int 1, pc⟩) :=
  leads_plain host s h shown rfl fun _ _ => rfl

/-- Two ints are replaced by the result of an operation. -/
theorem leads_arith (op : ArithOp) (byte : UInt8) {x y z : Int32} {a b : Nat}
    (h : m.Plays id (Demo.activation id n base pc ipc :: rest)
      ((below.push ⟨.int x, a⟩).push ⟨.int y, b⟩))
    (shown : (Demo.activation id n base pc ipc).Shows pc [byte])
    (named : Opcode.ofByte byte = .arith .int op) (own : base ≤ below.size)
    (result : intResult? op x y = some z) :
    Leads host s id 1 m (Demo.activation id n base (pc + 1) pc :: rest)
      (below.push ⟨.int z, pc⟩) := by
  have base' := le_size_push own (⟨.int x, a⟩ : Operand)
  refine leads_plain host s (x := arith .int op) h shown (by rw [named]; rfl) fun c events => ?_
  rw [arith, bind_of_ok (popInt_run base' rfl), bind_of_ok (popInt_run own rfl), result]
  rfl

/-- The number is compared with one. -/
theorem leads_compare {x y : Int32} {a b : Nat}
    (h : m.Plays id (Demo.activation id n base 2 ipc :: rest)
      ((below.push ⟨.int x, a⟩).push ⟨.int y, b⟩)) (own : base ≤ below.size) :
    Leads host s id 1 m (Demo.activation id n base (if y < x then 7 else 5) 2 :: rest) below := by
  have base' := le_size_push own (⟨.int x, a⟩ : Operand)
  refine leads_plain host s (x := branchIf (popCompare .gt)) h ⟨_, rfl⟩ rfl fun c events => ?_
  have offset : (Demo.activation id n base 2 ipc).Shows 3 (twoBytes 5) := ⟨_, rfl⟩
  have read : readI16 s (c.amid (Demo.activation id n base 2 ipc) rest
      ((below.push ⟨.int x, a⟩).push ⟨.int y, b⟩) events 3) = .ok 5 (c.amid _ rest _ events 5) :=
    bind_of_ok (readU16_run offset)
  have compared : popCompare .gt s (c.amid (Demo.activation id n base 2 ipc) rest
      ((below.push ⟨.int x, a⟩).push ⟨.int y, b⟩) events 5) =
        .ok (decide (y < x)) (c.amid (Demo.activation id n base 2 ipc) rest below events 5) := by
    rw [popCompare, bind_of_ok (popInt_run base' rfl), bind_of_ok (popInt_run own rfl)]
    rfl
  rw [branchIf, bind_of_ok read, bind_of_ok compared]
  by_cases greater : y < x
  · rw [decide_eq_true greater, if_pos greater]
    exact branch_run 5
  · rw [decide_eq_false greater, if_neg greater]
    rfl

/-- The reference to the method is resolved and its class is brought into use, and then the method
is called. -/
theorem invokeStatic_plays
    (h : m.Plays id (Demo.activation id n base 11 ipc :: rest) operands) (events : Array Event) :
    ∃ b, (m.amid (Demo.activation id n base 11 ipc) rest operands events 14).Enables b ∧
      invokeStatic host s (m.amid (Demo.activation id n base 11 ipc) rest operands events 12) =
        (discard (invoke host (Demo.classAt id) Demo.fact) : Exec Unit) s b := by
  have shown : (Demo.activation id n base 11 ipc).Shows 12 (twoBytes 1) := ⟨_, rfl⟩
  have staged : (m.amid (Demo.activation id n base 11 ipc) rest operands events 14).Staged id :=
    (h.amid operands events 14).toStaged
  have read : readMethodRef s (m.amid (Demo.activation id n base 11 ipc) rest operands events 12) =
      .ok ⟨"Factorial", "fact", "(I)I"⟩
        (m.amid (Demo.activation id n base 11 ipc) rest operands events 14) := by
    rw [readMethodRef, bind_of_ok (readU16_run shown), bind_of_ok (frame_of_cons rfl)]
    rfl
  obtain ⟨a, same⟩ : ∃ a, a = m.amid (Demo.activation id n base 11 ipc) rest operands events 14 :=
    ⟨_, rfl⟩
  rw [← same] at staged read ⊢
  have found : resolveClass "Factorial" s a = .ok (some (Demo.classAt id)) a := by
    rw [resolveClass, bind_of_ok library_run, staged.known]
    rfl
  have meant : resolveMethod ⟨"Factorial", "fact", "(I)I"⟩ s a = .ok (some Demo.fact) a := by
    rw [resolveMethod, bind_of_ok library_run, staged.resolves]
    rfl
  have declaring : declaringClass Demo.fact s a = .ok (Demo.classAt id) a :=
    findClass_of_find? staged.known
  obtain ⟨b, ready, enables⟩ := staged.initialises host s
  let c : Machine :=
    { b with world := b.world.noting (.used id b.thread.id (b.world.initState id)) }
  have used : useClass id s b = .ok () c := rfl
  have noted : b.Enables c := ⟨⟨_, _, _, rfl⟩, fun available => available⟩
  refine ⟨c, enables.trans noted, ?_⟩
  rw [invokeStatic, bind_of_ok read, bind_of_ok found]
  dsimp only
  rw [bind_of_ok meant]
  refine (bind_of_ok declaring).trans ((bind_of_ok ready).trans ?_)
  exact bind_of_ok used

/-- The method is called for the number on top. -/
theorem leads_call {k : Int32} {a : Nat}
    (h : m.Plays id (Demo.activation id n base 11 ipc :: rest) (below.push ⟨.int k, a⟩))
    (own : base ≤ below.size) (room : rest.length + 1 < s.config.maxFrames) :
    Leads host s id 1 m
      (Demo.activation id k below.size 0 0 :: Demo.activation id n base 14 11 :: rest) below := by
  refine leads_of_step h fun b plays => ?_
  have shown : (Demo.activation id n base 11 ipc).Shows 11 [0xb8] := ⟨_, rfl⟩
  obtain ⟨c, enables, called⟩ := invokeStatic_plays host s plays
    (b.traced s (Demo.activation id n base 11 ipc) 0xb8)
  have ready := (plays.amid (below.push ⟨.int k, a⟩) _ 14).enabled enables
  have top : c.thread.operands = below ++ [(⟨.int k, a⟩ : Operand)].toArray := by
    rw [ready.held]
    simp
  have within : c.thread.stackBase ≤ below.size := by
    rw [Thread.stackBase_of_cons ready.current]
    exact own
  have room' : c.thread.frames.length < s.config.maxFrames := by
    rw [ready.current]
    exact room
  have placed : Frame.localsOf Demo.fact [.int k] = .ok #[.int k] := rfl
  obtain ⟨events, entered⟩ := invoke_enters host (Demo.classAt id) Demo.fact_interpreted room' top
    rfl within placed ready.depths
  refine ⟨_, ?_, ready.entered (f := Demo.activation id k below.size 0 0) rfl below events⟩
  rw [step_plays host s plays shown]
  exact bind_of_ok (called.trans (discard_of_ok entered))

/-- There is no room for one more call: all frames are left. -/
theorem turn_overflows
    (h : m.Plays id (Demo.activation id n base 11 ipc :: rest) operands)
    (full : s.config.maxFrames ≤ rest.length + 1) :
    ∃ exception m', turn host 1 s m = .ok (some (.uncaught exception)) m' ∧ m'.Vacated ∧
      m'.world.heap.typeName (.object exception) = .ok Throwable.stackOverflowError := by
  obtain ⟨b, plays, turned⟩ := turn_plays host s h
  have shown : (Demo.activation id n base 11 ipc).Shows 11 [0xb8] := ⟨_, rfl⟩
  obtain ⟨c, enables, called⟩ := invokeStatic_plays host s plays
    (b.traced s (Demo.activation id n base 11 ipc) 0xb8)
  have ready := (plays.amid operands _ 14).enabled enables
  have full' : s.config.maxFrames ≤ c.thread.frames.length := by
    rw [ready.current]
    exact full
  obtain ⟨events, overflown⟩ := invoke_overflows host (Demo.classAt id) Demo.fact_interpreted full'
  have other : Throwable.stackOverflowError ≠ Throwable.outOfMemoryError := by decide
  obtain ⟨exception, events', heap, made, raised, known, named⟩ := raise_silent (s := s)
    (m := { c with world := { c.world with events } }) { ready.ample with } other
  let d : Machine :=
    ⟨{ c.world with events := events', heap }, { c.thread with pending := some exception }⟩
  have invoked : invoke host (Demo.classAt id) Demo.fact s c = .ok false d :=
    overflown.trans (bind_of_ok raised)
  have stepped : step host s b = .ok .next d := by
    rw [step_plays host s plays shown]
    exact bind_of_ok (called.trans (discard_of_ok invoked))
  have frames : d.thread.frames =
      { Demo.activation id n base 11 ipc with pc := 14, instructionPc := 11 } :: rest :=
    ready.current
  obtain ⟨m', handled, vacated, same⟩ := handleException_alone (s := s) host (m := d) ready.alone
    known (frames ▸ List.cons_ne_nil _ _) (frames ▸ ready.depths) ready.level fun f left => by
      rw [ready.methods f (ready.current ▸ left)]
      rfl
  refine ⟨exception, m', ?_, vacated, ?_⟩
  · rw [turned, bind_of_ok stepped, settle_pending rfl]
    exact handled
  · rw [same, Heap.typeName, known]
    exact congrArg Except.ok named

/-- What returning a number comes to. -/
theorem turn_returns {v : Int32} {a : Nat}
    (h : m.Plays id (Demo.activation id n below.size pc ipc :: rest) (below.push ⟨.int v, a⟩))
    (shown : (Demo.activation id n below.size pc ipc).Shows pc [0xac]) : ∃ m',
      turn host 1 s m = settle host 1 (if rest.length = 0 then .leave else .next) s m' ∧
      m'.Staged id ∧ m'.thread.frames = rest ∧ m'.thread.depths = [rest.length] ∧
      m'.thread.level = 1 ∧ ∃ tag, m'.thread.operands = below.push ⟨.int v, tag⟩ := by
  obtain ⟨b, plays, turned⟩ := turn_plays host s h
  have counter : b.thread.depths = (rest.length + 1) :: [] := plays.depths
  have own : (Demo.activation id n below.size pc ipc).stackBase ≤ below.size := Nat.le_refl _
  have result : (⟨.int v, a⟩ : Operand).value.coerceTo
      (Demo.activation id n below.size pc ipc).method.type.result = .ok (.int v) := rfl
  obtain ⟨events, returned⟩ := returnValue_run (s := s) rest
    (b.traced s (Demo.activation id n below.size pc ipc) 0xac) (pc + 1) own result counter
  have staged := (plays.amid below (b.traced s (Demo.activation id n below.size pc ipc) 0xac)
    (pc + 1)).toStaged
  refine ⟨_, turned.trans (bind_of_ok ((step_plays host s plays shown).trans returned)),
    { staged with ample := { staged.ample with } }, rfl, rfl, plays.level, ?_⟩
  have left : below.take below.size = below := by simp
  exact ⟨_, congrArg (Array.push · _) ((Frame.take_roof below _).trans left)⟩

/-- The activation below goes on with the result. -/
theorem leads_return {g : Frame} {v : Int32} {a : Nat}
    (h : m.Plays id (Demo.activation id n below.size pc ipc :: g :: rest)
      (below.push ⟨.int v, a⟩))
    (shown : (Demo.activation id n below.size pc ipc).Shows pc [0xac]) :
    ∃ tag, Leads host s id 1 m (g :: rest) (below.push ⟨.int v, tag⟩) := by
  obtain ⟨m', turned, staged, current, depths, level, tag, held⟩ := turn_returns host s h shown
  refine ⟨tag, m', .round (turned.trans (settle_next staged.clear)), ?_⟩
  exact { staged with
    current, held, depths, level, methods := (List.forall_mem_cons.mp h.methods).2 }

/-- The run is over when there is no activation below. -/
theorem turn_completes {v : Int32} {a : Nat}
    (h : m.Plays id [Demo.activation id n below.size pc ipc] (below.push ⟨.int v, a⟩))
    (shown : (Demo.activation id n below.size pc ipc).Shows pc [0xac]) :
    ∃ tag m', turn host 1 s m = .ok (some .completed) m' ∧ m'.Vacated ∧
      m'.thread.operands = below.push ⟨.int v, tag⟩ := by
  obtain ⟨m', turned, staged, frames, depths, level, tag, held⟩ := turn_returns host s h shown
  exact ⟨tag, m', turned.trans (settle_leave staged.clear),
    ⟨frames, depths, staged.clear, level⟩, held⟩

end Instructions

/-! ## Activations -/

/-- The number below a number above one. -/
theorem pred_toNat {n : Int32} (great : 1 < n) : (n - 1).toInt.toNat + 1 = n.toInt.toNat := by
  have above := Int32.lt_iff_toInt_lt.mp great
  have one : (1 : Int32).toInt = 1 := rfl
  have bound := n.toInt_lt
  rw [Int32.toInt_sub, one, Int.bmod_eq_of_le] <;> omega

/-- A number above one times the factorial of the one below is its own factorial. -/
theorem mul_factorial {n : Int32} {k : Nat} (number : n.toInt.toNat = k + 1) :
    n * Int32.ofNat k.factorial = Int32.ofNat (k + 1).factorial := by
  have positive : ((k + 1 : Nat) : Int) = n.toInt := by omega
  have same : Int32.ofNat (k + 1) = n := by
    rw [← Int32.ofInt_eq_ofNat, positive, Int32.ofInt_toInt]
  rw [Nat.factorial_succ, Int32.ofNat_mul, same]

/-- The number of an activation is above one or not. -/
theorem one_lt_iff {n : Int32} : 1 < n ↔ 1 < n.toInt.toNat := by
  rw [Int32.lt_iff_toInt_lt]
  have one : (1 : Int32).toInt = 1 := rfl
  omega

section Activations

variable (host : Host) (s : Settings) {id : Nat}

/-- The beginning of an activation, up to the comparison. -/
theorem leads_begin {m : Machine} {n : Int32} {ipc : Nat} {rest : List Frame}
    {below : Array Operand}
    (h : m.Plays id (Demo.activation id n below.size 0 ipc :: rest) below) :
    Leads host s id 3 m
      (Demo.activation id n below.size (if 1 < n then 7 else 5) 2 :: rest) below :=
  ((leads_load host s h ⟨_, rfl⟩).append fun _ h => leads_one host s h ⟨_, rfl⟩).append
    fun _ h => leads_compare host s h (Nat.le_refl _)

/-- An activation for a number up to one has its result without a call. -/
theorem leads_small {m : Machine} {n : Int32} {ipc : Nat} {rest : List Frame}
    {below : Array Operand} (small : ¬ 1 < n)
    (h : m.Plays id (Demo.activation id n below.size 0 ipc :: rest) below) :
    Leads host s id 4 m (Demo.activation id n below.size 6 5 :: rest) (below.push ⟨.int 1, 5⟩) := by
  refine Leads.append (b := 1) (leads_begin host s h) fun _ h => ?_
  rw [if_neg small] at h
  exact leads_one host s h ⟨_, rfl⟩

/-- An activation for a greater number comes to its call. -/
theorem leads_descent {m : Machine} {n : Int32} {ipc : Nat} {rest : List Frame}
    {below : Array Operand} (great : 1 < n)
    (h : m.Plays id (Demo.activation id n below.size 0 ipc :: rest) below) :
    Leads host s id 7 m (Demo.activation id n below.size 11 10 :: rest)
      ((below.push ⟨.int n, 7⟩).push ⟨.int (n - 1), 10⟩) := by
  refine (leads_begin host s h).append (b := 4) fun _ h => ?_
  rw [if_pos great] at h
  have own := le_size_push (Nat.le_refl below.size) ⟨.int n, 7⟩
  exact (((leads_load host s h ⟨_, rfl⟩).append fun _ h => leads_load host s h ⟨_, rfl⟩).append
    fun _ h => leads_one host s h ⟨_, rfl⟩).append
      fun _ h => leads_arith host s .sub 0x64 h ⟨_, rfl⟩ rfl own rfl

/-- With room for all activations the factorial is computed. -/
theorem leads_factorial (k : Nat) : ∀ {m : Machine} {n : Int32} {ipc : Nat} {rest : List Frame}
    {below : Array Operand}, n.toInt.toNat = k → k ≤ 1 ∨ rest.length + k ≤ s.config.maxFrames →
    m.Plays id (Demo.activation id n below.size 0 ipc :: rest) below →
    ∃ turns pc ipc' tag, turns ≤ 10 * k + 4 ∧
      (Demo.activation id n below.size pc ipc').Shows pc [0xac] ∧
      Leads host s id turns m (Demo.activation id n below.size pc ipc' :: rest)
        (below.push ⟨.int (Int32.ofNat k.factorial), tag⟩) := by
  induction k with
  | zero =>
      intro m n ipc rest below number _ h
      have small : ¬ 1 < n := by
        rw [one_lt_iff]
        omega
      exact ⟨4, 6, 5, 5, by omega, ⟨_, rfl⟩, leads_small host s small h⟩
  | succ k ih =>
      intro m n ipc rest below number room h
      by_cases great : 1 < n
      · have pred := pred_toNat great
        have above := one_lt_iff.mp great
        have number' : (n - 1).toInt.toNat = k := by omega
        have room' : rest.length + 1 < s.config.maxFrames := by omega
        -- one frame more and one less to come: the room stays enough
        have within : k ≤ 1 ∨ (Demo.activation id n below.size 14 11 :: rest).length + k ≤
            s.config.maxFrames := by
          rw [List.length_cons]
          omega
        have own := le_size_push (Nat.le_refl below.size) ⟨.int n, 7⟩
        obtain ⟨m₁, descended, h₁⟩ := leads_descent host s great h
        obtain ⟨m₂, called, h₂⟩ := leads_call host s h₁ own room'
        obtain ⟨turns, pc, ipc', tag, few, shown, m₃, computed, h₃⟩ := ih number' within h₂
        obtain ⟨tag', m₄, returned, h₄⟩ := leads_return host s h₃ shown
        obtain ⟨m₅, multiplied, h₅⟩ := leads_arith host s .mul 0x68 h₄ ⟨_, rfl⟩ rfl
          (Nat.le_refl _) rfl
        rw [mul_factorial number] at h₅
        refine ⟨7 + 1 + turns + 1 + 1, 15, 14, 14, by omega, ⟨_, rfl⟩, m₅, ?_, h₅⟩
        exact (((descended.trans called).trans computed).trans returned).trans multiplied
      · have one : k = 0 := by
          rw [one_lt_iff] at great
          omega
        subst one
        exact ⟨4, 6, 5, 5, by omega, ⟨_, rfl⟩, leads_small host s great h⟩

/-- Without room for all activations the one for which there is none raises the exception. -/
theorem reaches_overflow (free : Nat) : ∀ {m : Machine} {n : Int32} {ipc : Nat}
    {rest : List Frame} {below : Array Operand}, free + 1 < n.toInt.toNat →
    s.config.maxFrames = rest.length + 1 + free →
    m.Plays id (Demo.activation id n below.size 0 ipc :: rest) below →
    ∃ turns last exception m', turns ≤ 8 * free + 7 ∧ Reaches host 1 s turns m last ∧
      turn host 1 s last = .ok (some (.uncaught exception)) m' ∧ m'.Vacated ∧
      m'.world.heap.typeName (.object exception) = .ok Throwable.stackOverflowError := by
  induction free with
  | zero =>
      intro m n ipc rest below number room h
      have great : 1 < n := one_lt_iff.mpr (by omega)
      obtain ⟨m₁, descended, h₁⟩ := leads_descent host s great h
      obtain ⟨exception, m', overflown⟩ := turn_overflows host s h₁ (Nat.le_of_eq room)
      exact ⟨7, m₁, exception, m', by omega, descended, overflown⟩
  | succ free ih =>
      intro m n ipc rest below number room h
      have great : 1 < n := one_lt_iff.mpr (by omega)
      have pred := pred_toNat great
      have own := le_size_push (Nat.le_refl below.size) ⟨.int n, 7⟩
      obtain ⟨m₁, descended, h₁⟩ := leads_descent host s great h
      obtain ⟨m₂, called, h₂⟩ := leads_call host s h₁ own (by omega)
      obtain ⟨turns, last, exception, m', few, reaches, overflown⟩ :=
        ih (by omega) (by rw [List.length_cons]; omega) h₂
      exact ⟨7 + 1 + turns, last, exception, m', by omega,
        (descended.trans called).trans reaches, overflown⟩

end Activations

end Exec

/-! ## The set-up -/

/-- Nothing runs on the thread, and nothing is left on it. -/
structure Thread.Vacant (t : Thread) : Prop where
  /-- There are no frames. -/
  frames : t.frames = []
  /-- There are no operands. -/
  operands : t.operands = #[]
  /-- No run is in progress. -/
  depths : t.depths = []
  /-- No run is counted. -/
  level : t.level = 0
  /-- No exception is pending. -/
  clear : t.pending = none

/-- Nothing was done yet.  The heap has no capacity, and the machine is not going to be halted. -/
structure Machine.Fresh (m : Machine) : Prop extends m.Unhindered where
  /-- No class is registered, and nothing is allocated. -/
  blank : m.world.Blank
  /-- The heap has no capacity. -/
  unbounded : m.world.heap.capacity = none
  /-- Nothing runs on the thread. -/
  vacant : m.thread.Vacant
  /-- There is no thread object. -/
  alone : m.thread.threadObject = none

/-- Classes were registered, and nothing else was done. -/
structure Machine.Defines (m m' : Machine) : Prop where
  /-- Only what is known about classes has changed. -/
  rest : ∃ events library classStates,
    m' = { m with world := { m.world with events, library, classStates } }
  /-- No class was brought into use. -/
  unused : (∀ id, m.world.initState id = .uninitialised) →
    ∀ id, m'.world.initState id = .uninitialised

namespace Machine.Defines

variable {m m' m'' : Machine}

theorem refl (m : Machine) : m.Defines m := ⟨⟨_, _, _, rfl⟩, id⟩

theorem trans (first : m.Defines m') (second : m'.Defines m'') : m.Defines m'' := by
  obtain ⟨events, library, classStates, rfl⟩ := first.rest
  obtain ⟨events', library', classStates', rfl⟩ := second.rest
  exact ⟨⟨events', library', classStates', rfl⟩, second.unused ∘ first.unused⟩

theorem unhindered (h : m.Defines m') (free : m.Unhindered) : m'.Unhindered := by
  obtain ⟨events, library, classStates, rfl⟩ := h.rest
  exact ⟨free.running, free.unlimited, free.unpaused⟩

theorem capacity (h : m.Defines m') :
    m'.world.heap.capacity = m.world.heap.capacity := by
  obtain ⟨events, library, classStates, rfl⟩ := h.rest
  rfl

theorem thread (h : m.Defines m') : m'.thread = m.thread := by
  obtain ⟨events, library, classStates, rfl⟩ := h.rest
  rfl

/-- A class that was just declared is not in use. -/
theorem push (decl : ClassDecl) (library : Library) (events : Array Event) :
    m.Defines { m with world := { m.world with
      events, library, classStates := m.world.classStates.push decl.freshState } } := by
  refine ⟨⟨_, _, _, rfl⟩, fun unused id => ?_⟩
  have before := unused id
  rw [World.initState] at before ⊢
  dsimp only
  rw [Array.getElem?_push]
  split
  · rfl
  · exact before

end Machine.Defines

namespace Bootstrap

open Exec

variable {s : Settings}

/-- Classes that can be read are registered. -/
theorem defineAll_run {specs : List ClassSpec}
    (readable : ∀ c ∈ specs, ∃ decl, c.build = .ok decl) :
    ∀ m, ∃ m', defineAll specs s m = .ok () m' ∧ m.Defines m' := by
  induction specs with
  | nil => exact fun m => ⟨m, rfl, .refl m⟩
  | cons spec specs ih =>
      intro m
      obtain ⟨⟨decl, built⟩, readable⟩ := List.forall_mem_cons.mp readable
      obtain ⟨events, defined⟩ := define_run (s := s) (m := m) built
      obtain ⟨m', rest, defines⟩ := ih readable _
      exact ⟨m', (bind_of_ok (discard_of_ok defined)).trans rest,
        (Machine.Defines.push ..).trans defines⟩

theorem classes_readable : ∀ spec ∈ classes, ∃ decl, spec.build = .ok decl := by
  have all : classes.all (·.build.isOk) = true := by decide +kernel
  intro spec listed
  have readable := List.all_eq_true.mp all spec listed
  cases built : spec.build with
  | error e => simp [built, Except.isOk, Except.toBool] at readable
  | ok decl => exact ⟨decl, rfl⟩

/-- The topmost class has no initialiser, and there is nothing above it. -/
theorem classes_object : ∃ spec ∈ classes, spec.name = objectName ∧ ∀ decl, spec.build = .ok decl →
    decl.superName = none ∧ decl.method? "<clinit>" "()V" = none := by
  refine ⟨_, List.mem_append_left _ (.head _), rfl, fun decl built => ?_⟩
  have plain : (classes.head?.all fun spec => spec.build.toOption.all fun decl =>
      decl.superName.isNone && (decl.method? "<clinit>" "()V").isNone) = true := by decide +kernel
  rw [classes, List.cons_append, List.head?_cons, Option.all_some, built] at plain
  simpa [Except.toOption] using plain

end Bootstrap

namespace Demo

open Exec

/-- After the set-up the machine is on the stage. -/
theorem staged {m : Machine} (s : Settings) (fresh : m.Fresh) : ∃ id m',
    (do Bootstrap.load; Bootstrap.define factorial : Exec LoadedClass) s m =
      .ok (classAt id) m' ∧ m'.Staged id ∧ m'.thread = m.thread := by
  obtain ⟨mid, loaded, defines⟩ :=
    Bootstrap.defineAll_run (s := s) Bootstrap.classes_readable m
  have registered := Bootstrap.defineAll_registered loaded fresh.blank.registered
  obtain ⟨m', defined, defines', library, registered'⟩ : ∃ m', Bootstrap.define factorial s mid =
      .ok (classAt mid.world.library.classes.length) m' ∧ m.Defines m' ∧
      m'.world.library = (mid.world.library.register declared).1 ∧ m'.world.Registered := by
    obtain ⟨events, defined⟩ := Bootstrap.define_run (s := s) (m := mid) factorial_build
    exact ⟨_, defined, defines.trans (.push ..), rfl,
      registered.register (ClassSpec.build_reads factorial_build) events⟩
  have nodup : (Bootstrap.classes.map ClassSpec.name).Nodup := by decide +kernel
  have other : "Factorial" ∉ Bootstrap.classes.map ClassSpec.name := by decide +kernel
  have provided (spec : ClassSpec) (listed : spec ∈ Bootstrap.classes) :
      m'.world.library.Provides spec := by
    rw [library]
    refine Bootstrap.provides_register (Bootstrap.defineAll_provides loaded nodup listed) ?_
    exact fun same => other (List.mem_map.mpr ⟨spec, listed, same⟩)
  have typed := registered'.typed fun spec listed _ => provided spec listed
  have unused (id : Nat) : m.world.initState id = .uninitialised := by
    rw [World.initState, fresh.blank.states]
    rfl
  refine ⟨_, m', (bind_of_ok loaded).trans defined, ?_, defines'.thread⟩
  exact {
    toUnhindered := defines'.unhindered fresh.toUnhindered
    known := by
      rw [library]
      rfl
    object := by
      obtain ⟨spec, listed, named, plain⟩ := Bootstrap.classes_object
      obtain ⟨c, found, built⟩ := provided spec listed
      exact ⟨c, named ▸ found, plain _ built⟩
    ample :=
      { boot := typed.regular.boot
        memo := typed.memo
        unbounded := defines'.capacity.trans fresh.unbounded
        arena := typed.arena }
    available := fun id => .inl (defines'.unused unused id)
    clear := defines'.thread ▸ fresh.vacant.clear
    alone := defines'.thread ▸ fresh.alone }

/-- What a call of the method comes to is what the loop of its run comes to. -/
theorem call_of_loop {m : Machine} {id : Nat} (natives : Natives) (c : Nat) (n : Int32)
    {s : Settings} (staged : m.Staged id) (vacant : m.thread.Vacant)
    (room : 0 < s.config.maxFrames) :
    ∃ x : Machine, x.Plays id [activation id n 0 0 0] #[] ∧ ∀ o m',
      loop (Engine.host natives c) 1 c s x = .ok o m' → m'.Vacated →
      Engine.call natives (c + 2) (classAt id) fact [.int n] s m =
        conclude fact 0 o s ((m'.atLevel 0).withDepths []) := by
  obtain ⟨events, prepared⟩ := prepare_run (s := s) (m := m) fact [.int n]
  let ready := m.prepared [.int n] events
  have frames : ready.thread.frames = [] := vacant.frames
  have depths : ready.thread.depths = [0] := congrArg (0 :: ·) vacant.depths
  have top : ready.thread.operands = #[] ++ [(⟨.int n, m.tag⟩ : Operand)].toArray :=
    congrArg (· ++ _) vacant.operands
  have room' : ready.thread.frames.length < s.config.maxFrames := by
    rw [frames]
    exact room
  have base : ready.thread.stackBase ≤ (#[] : Array Operand).size := by
    rw [Thread.stackBase, frames]
    exact Nat.le_refl 0
  have placed : Frame.localsOf fact [.int n] = .ok #[.int n] := rfl
  obtain ⟨events', invoked⟩ := invoke_enters (Engine.host natives (c + 1)) (classAt id)
    fact_interpreted room' top rfl base placed depths
  let entered := ready.entered (activation id n 0 0 0) #[] [1] events'
  refine ⟨entered.atLevel 1, ?_, fun o m' looped vacated => ?_⟩
  · exact {
      staged with
      ample := { staged.ample with }
      current := congrArg (activation id n 0 0 0 :: ·) frames
      methods := by simp [activation]
      held := rfl
      depths := rfl
      level := rfl }
  · have level : entered.thread.level = 0 := vacant.level
    have ran : runLoop (Engine.host natives c) c s entered = .ok o (m'.atLevel 0) := by
      have looped' : loop (Engine.host natives c) (entered.thread.level + 1) c s
          (entered.atLevel (entered.thread.level + 1)) = .ok o m' := by
        rw [level]
        exact looped
      rw [runLoop_of_ok looped', vacated.level]
    have run : invokeAndRun (Engine.host natives (c + 1)) (classAt id) fact s
        ((prepare fact [.int n]).after s m) = .ok o (m'.atLevel 0) := by
      rw [after_of_ok prepared, invokeAndRun]
      refine (bind_of_ok invoked).trans ?_
      rw [if_pos rfl]
      exact (congrFun (congrFun (Engine.reentry_run_succ natives c) s) entered).trans ran
    have called : Engine.call natives (c + 2) (classAt id) fact [.int n] s m =
        execute (Engine.host natives (c + 1)) (classAt id) fact [.int n] s m :=
      congrFun (congrFun (Engine.call.eq_2 ..) s) m
    have depth : m.thread.operandDepth = 0 := by
      rw [Thread.operandDepth, vacant.operands]
      exact Nat.zero_sub _
    rw [called, execute_of_ran rfl run vacated.depths, depth]

/-- What the run of a call comes to. -/
theorem call_ends {m : Machine} {id : Nat} (natives : Natives) {budget : Nat} {n : Int32}
    {s : Settings} (staged : m.Staged id) (vacant : m.thread.Vacant)
    (room : 1 ≤ s.config.maxFrames) (enough : 10 * n.toInt.toNat + 7 ≤ budget) :
    ∃ answer m', Engine.call natives budget (classAt id) fact [.int n] s m = .ok answer m' ∧
      m'.thread.Vacant ∧
      if n.toInt ≤ 1 ∨ n.toInt ≤ s.config.maxFrames then
        answer = .returned (some (.int (Int32.ofNat n.toInt.toNat.factorial)))
      else ∃ exception, answer = .threw exception ∧
        m'.world.heap.typeName (.object exception) = .ok "java/lang/StackOverflowError" := by
  obtain ⟨c, rfl⟩ : ∃ c, budget = c + 2 := ⟨budget - 2, by omega⟩
  obtain ⟨x, plays, called⟩ := call_of_loop natives c n staged vacant room
  -- the operands of the activation begin where there is none
  change x.Plays id [activation id n (#[] : Array Operand).size 0 0] #[] at plays
  split
  next within =>
    have fits : n.toInt.toNat ≤ 1 ∨
        ([] : List Frame).length + n.toInt.toNat ≤ s.config.maxFrames := by
      rw [List.length_nil]
      omega
    obtain ⟨turns, pc, ipc, tag, few, shown, last, reaches, h⟩ :=
      leads_factorial (Engine.host natives c) s _ rfl fits plays
    obtain ⟨tag', m', completed, vacated, held⟩ := turn_completes (Engine.host natives c) s h shown
    refine ⟨_, _, (called _ m' (reaches.ends completed (by omega)) vacated).trans
      (conclude_completed_alone (by decide) vacated.frames held), ?_, rfl⟩
    exact ⟨vacated.frames, rfl, rfl, rfl, vacated.clear⟩
  next beyond =>
    obtain ⟨free, size⟩ : ∃ free, s.config.maxFrames = ([] : List Frame).length + 1 + free :=
      Nat.exists_eq_add_of_le room
    have great : free + 1 < n.toInt.toNat := by
      rw [List.length_nil] at size
      omega
    obtain ⟨turns, last, exception, m', few, reaches, overflown, vacated, named⟩ :=
      reaches_overflow (Engine.host natives c) s free great size plays
    refine ⟨_, _, (called _ m' (reaches.ends overflown (by omega)) vacated).trans
      (conclude_uncaught_alone vacated.frames), ?_, exception, rfl, named⟩
    exact ⟨vacated.frames, rfl, rfl, rfl, vacated.clear⟩

/-- The class of the demonstration computes factorials as far as there is room for frames.  Let the
class be registered in a machine in which nothing was done, together with the classes that the
machine brings along.  A call of its method for a number ends, within a budget in proportion to the
number.  With room for as many frames as the number says it returns the factorial, as an int, and
the same is so for numbers up to one, the result being one.  Otherwise it throws the exception for
an overflow of the stack.  In both cases nothing is left on the thread. -/
theorem factorials_computed (natives : Natives) (budget : Nat) (n : Int32) {s : Settings}
    {m₀ : Machine} (fresh : m₀.Fresh) (room : 1 ≤ s.config.maxFrames)
    (enough : 10 * n.toInt.toNat + 7 ≤ budget) : ∃ cls decl m answer m',
      (do Bootstrap.load; Bootstrap.define factorial : Exec LoadedClass) s m₀ = .ok cls m ∧
      cls.method? "fact" "(I)I" = some decl ∧
      Engine.call natives budget cls decl [.int n] s m = .ok answer m' ∧
      m'.thread.Vacant ∧
      if n.toInt ≤ 1 ∨ n.toInt ≤ s.config.maxFrames then
        answer = .returned (some (.int (Int32.ofNat n.toInt.toNat.factorial)))
      else ∃ exception, answer = .threw exception ∧
        m'.world.heap.typeName (.object exception) = .ok "java/lang/StackOverflowError" := by
  obtain ⟨id, m, set, staged, same⟩ := staged s fresh
  obtain ⟨answer, m', called, vacant, result⟩ :=
    call_ends natives staged (same ▸ fresh.vacant) room enough
  exact ⟨classAt id, fact, m, answer, m', set, rfl, called, vacant, result⟩

/-- There is room for the thirteen frames of one call, the result of which does not fit into an int,
and not for the frames of another one. -/
theorem factorials_computed_thirteen :
    (∃ cls decl m m', (do Bootstrap.load; Bootstrap.define factorial : Exec LoadedClass) {}
        ⟨{}, { id := 0 }⟩ = .ok cls m ∧
      cls.method? "fact" "(I)I" = some decl ∧
      Engine.call coreNatives 137 cls decl [.int 13] {} m =
        .ok (.returned (some (.int 1932053504))) m' ∧ m'.thread.Vacant) ∧
    ∃ cls decl m exception m',
      (do Bootstrap.load; Bootstrap.define factorial : Exec LoadedClass)
        { config := { maxFrames := 3 } } ⟨{}, { id := 0 }⟩ = .ok cls m ∧
      Engine.call coreNatives 137 cls decl [.int 13] { config := { maxFrames := 3 } } m =
        .ok (.threw exception) m' ∧
      m'.world.heap.typeName (.object exception) = .ok "java/lang/StackOverflowError" := by
  have fresh : Machine.Fresh ⟨{}, { id := 0 }⟩ :=
    { running := rfl, unlimited := rfl, unpaused := rfl, blank := ⟨rfl, rfl, rfl, rfl⟩
      unbounded := rfl, vacant := ⟨rfl, rfl, rfl, rfl, rfl⟩, alone := rfl }
  constructor
  · obtain ⟨cls, decl, m, answer, m', set, named, called, vacant, result⟩ :=
      factorials_computed coreNatives 137 13 (s := {}) fresh (by decide) (by decide)
    rw [if_pos (by decide)] at result
    subst result
    exact ⟨cls, decl, m, m', set, named, called, vacant⟩
  · obtain ⟨cls, decl, m, answer, m', set, named, called, vacant, result⟩ :=
      factorials_computed coreNatives 137 13 (s := { config := { maxFrames := 3 } }) fresh
        (by decide) (by decide)
    rw [if_neg (by decide)] at result
    obtain ⟨exception, rfl, thrown⟩ := result
    exact ⟨cls, decl, m, exception, m', set, called, thrown⟩

end Demo

end JavaMachine
