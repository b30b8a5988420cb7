import JavaMachine.Proofs.Stacks
import Mathlib.Data.List.Forall2

/-!
# Instructions run forward

What an instruction does is followed here from the bytes that stand in the code.  A machine amid an
instruction (`Machine.amid`) is the machine in front of it with the current frame moved on, some
operands taken, and more reported; nothing else can have changed while an instruction reads its
bytes and pops its operands.  Each reader and `popInt` get one equation from one such machine to
another.
-/

namespace JavaMachine

/-! ## Bytes of the code -/

/-- The two bytes of a number, the higher one first. -/
def twoBytes (n : UInt16) : List UInt8 := [(n >>> 8).toUInt8, n.toUInt8]

namespace Frame

variable {f : Frame} {a : Nat} {xs ys : List UInt8}

/-- The code has these bytes from an address on. -/
def Shows (f : Frame) (a : Nat) (bytes : List UInt8) : Prop :=
  bytes <+: f.method.code.data.toList.drop a

theorem Shows.front (ys : List UInt8) (h : f.Shows a (xs ++ ys)) : f.Shows a xs :=
  (List.prefix_append xs ys).trans h

theorem Shows.head {x : UInt8} (h : f.Shows a (x :: xs)) : f.Shows a [x] :=
  (List.prefix_append [x] xs).trans h

theorem Shows.back (xs : List UInt8) (h : f.Shows a (xs ++ ys)) : f.Shows (a + xs.length) ys := by
  obtain ⟨behind, same⟩ := h
  refine ⟨behind, ?_⟩
  rw [← List.drop_drop, ← same, List.append_assoc, List.drop_left]

theorem Shows.fits (h : f.Shows a xs) (given : xs ≠ []) : a + xs.length ≤ f.codeLength := by
  have short := h.length_le
  have some := List.length_pos_iff.mpr given
  have size : f.codeLength = f.method.code.data.toList.length := rfl
  rw [List.length_drop] at short
  omega

theorem Shows.byteAt (h : f.Shows a xs) {i : Nat} (inside : i < xs.length) :
    f.byteAt (a + i) = xs[i] := by
  obtain ⟨behind, same⟩ := h
  have found : f.method.code.data.toList[a + i]? = some xs[i] := by
    rw [← List.getElem?_drop, ← same, List.getElem?_append_left inside,
      List.getElem?_eq_getElem inside]
  rw [Frame.byteAt, ← Array.getElem?_toList, found, Option.getD_some]

/-- A frame advances over what is left of the code. -/
theorem advance_of_fits {count : Nat} (fits : f.pc + count ≤ f.codeLength) :
    f.advance count = .ok { f with pc := f.pc + count } :=
  if_pos (decide_eq_true fits)

/-- What is read is the number of the bytes that stand there. -/
theorem readBytes_of_shows (h : f.Shows f.pc xs) (given : xs ≠ []) :
    f.readBytes xs.length = .ok (xs.foldl (fun n b => n * 256 + b.toNat) 0,
      { f with pc := f.pc + xs.length }) := by
  have bytes : (List.range xs.length).map (fun i => f.byteAt (f.pc + i)) = xs := by
    refine List.ext_getElem (by simp) fun i _ inside => ?_
    rw [List.getElem_map, List.getElem_range, h.byteAt inside]
  rw [readBytes, advance_of_fits (h.fits given), bytes]
  rfl

end Frame

/-! ## Machines amid an instruction -/

/-- A machine whose current frame has begun an instruction at its address and has read up to
another one. -/
def Machine.amid (m : Machine) (f : Frame) (rest : List Frame) (operands : Array Operand)
    (events : Array Event) (pc : Nat) : Machine :=
  { world := { m.world with events }
    thread := { m.thread with frames := { f with pc, instructionPc := f.pc } :: rest, operands } }

/-- What has been reported once the byte of an instruction is fetched. -/
def Machine.traced (m : Machine) (s : Settings) (f : Frame) (byte : UInt8) : Array Event :=
  if s.config.traceOpcodes ∧ s.levels.contains .trace then
    m.world.events.push (.execute f.pc (Opcode.mnemonicOf byte) f.method.signature)
  else m.world.events

/-- The current frame is the given one, and the given ints are its top operands, the last one on
top. -/
structure Machine.Offers (m : Machine) (f : Frame) (rest : List Frame) (below : Array Operand)
    (ints : List Int32) : Prop where
  /-- The frame is the current one. -/
  current : m.thread.frames = f :: rest
  /-- The ints are the top operands. -/
  top : ∃ os : List Operand, m.thread.operands = below ++ os.toArray ∧
    List.Forall₂ (fun o n => o.value.asInt = .ok n) os ints
  /-- The operands below them reach up to those of the frame. -/
  own : f.stackBase ≤ below.size

namespace Exec

variable {α : Type} {s : Settings} {m : Machine} {f : Frame} {rest : List Frame}
  {operands below : Array Operand} {events : Array Event} {pc : Nat}

theorem onFrame_of_ok {g : Frame → Except Fault (α × Frame)} {f' : Frame} {x : α}
    (current : m.thread.frames = f :: rest) (h : g f = .ok (x, f')) :
    onFrame g s m = .ok x { m with thread := { m.thread with frames := f' :: rest } } := by
  refine onThread_of_ok ?_
  simp only [Thread.frame, Thread.setFrame, current, bind, Except.bind, h, pure, Except.pure,
    List.tail_cons]

theorem moveFrame_of_error {g : Frame → Except Fault Frame} {e : Fault}
    (current : m.thread.frames = f :: rest) (h : g f = .error e) :
    moveFrame g s m = .error (.fault e) m := by
  unfold moveFrame onFrame
  refine onThread_of_error ?_
  simp only [Thread.frame, current, bind, Except.bind, h]

theorem amid_moveFrame {move : Frame → Except Fault Frame} {pc' : Nat}
    (moved : move { f with pc, instructionPc := f.pc } =
      .ok { f with pc := pc', instructionPc := f.pc }) :
    moveFrame move s (m.amid f rest operands events pc) =
      .ok () (m.amid f rest operands events pc') :=
  moveFrame_of_ok (m := m.amid f rest operands events pc) rfl moved

theorem amid_advance {count : Nat} (fits : pc + count ≤ f.codeLength) :
    moveFrame (·.advance count) s (m.amid f rest operands events pc) =
      .ok () (m.amid f rest operands events (pc + count)) :=
  amid_moveFrame (Frame.advance_of_fits fits)

/-- Bytes that stand at the address are read. -/
theorem readBytes_run (bytes : List UInt8) (shown : f.Shows pc bytes) (given : bytes ≠ []) :
    onFrame (·.readBytes bytes.length) s (m.amid f rest operands events pc) =
      .ok (bytes.foldl (fun n b => n * 256 + b.toNat) 0)
        (m.amid f rest operands events (pc + bytes.length)) :=
  onFrame_of_ok (m := m.amid f rest operands events pc) rfl
    (Frame.readBytes_of_shows (f := { f with pc, instructionPc := f.pc }) shown given)

theorem readU8_run {byte : UInt8} (shown : f.Shows pc [byte]) :
    readU8 s (m.amid f rest operands events pc) =
      .ok byte (m.amid f rest operands events (pc + 1)) := by
  refine (bind_of_ok (readBytes_run [byte] shown (by simp))).trans ?_
  simp

/-- Two bytes are read as the number that they are written for. -/
theorem readU16_run {index : UInt16} (shown : f.Shows pc (twoBytes index)) :
    readU16 s (m.amid f rest operands events pc) =
      .ok index (m.amid f rest operands events (pc + 2)) := by
  have number : (twoBytes index).foldl (fun n b => n * 256 + b.toNat) 0 = index.toNat := by
    have small := index.toNat_lt
    simp only [twoBytes, List.foldl_cons, List.foldl_nil, UInt16.toNat_toUInt8,
      UInt16.toNat_shiftRight, UInt16.reduceToNat, Nat.reduceMod, Nat.shiftRight_eq_div_pow]
    omega
  have taken : onFrame (·.readBytes 2) s (m.amid f rest operands events pc) = _ :=
    readBytes_run (twoBytes index) shown (by simp [twoBytes])
  rw [number] at taken
  refine (bind_of_ok taken).trans ?_
  simp [twoBytes]

/-- The byte at the address of the frame is fetched, and reported if instructions are traced. -/
theorem fetch_traced {byte : UInt8} (current : m.thread.frames = f :: rest)
    (shown : f.Shows f.pc [byte]) : fetch s m =
      .ok byte (m.amid f rest m.thread.operands (m.traced s f byte) (f.pc + 1)) := by
  have begun : moveFrame (fun f => .ok f.beginInstruction) s m =
      .ok () (m.amid f rest m.thread.operands m.world.events f.pc) :=
    moveFrame_of_ok current rfl
  rw [fetch, bind_of_ok begun, bind_of_ok (readU8_run shown), bind_of_ok (x := read) (s := s) rfl,
    Machine.traced]
  dsimp only
  by_cases traces : s.config.traceOpcodes = true
  · have told := report_eq (s := s) (m := m.amid f rest m.thread.operands m.world.events (f.pc + 1))
      (.execute f.pc (Opcode.mnemonicOf byte) f.method.signature)
    rw [if_pos traces, bind_of_ok (frame_of_cons rfl)]
    refine (bind_of_ok told).trans ?_
    simp only [traces, true_and]
    rfl
  · rw [if_neg traces, if_neg fun both => traces both.1]
    rfl

theorem fetch_run {byte : UInt8} (current : m.thread.frames = f :: rest)
    (shown : f.Shows f.pc [byte]) : ∃ events, fetch s m =
      .ok byte (m.amid f rest m.thread.operands events (f.pc + 1)) :=
  ⟨_, fetch_traced current shown⟩

/-- Operands below another one reach as far as before. -/
theorem le_size_push {base : Nat} (own : base ≤ below.size) (o : Operand) :
    base ≤ (below.push o).size := by
  rw [Array.size_push]
  omega

/-- The top operand is popped. -/
theorem popOperand_run (o : Operand) (own : f.stackBase ≤ below.size) :
    popOperand s (m.amid f rest (below.push o) events pc) =
      .ok o (m.amid f rest below events pc) := by
  have depth : (m.amid f rest (below.push o) events pc).thread.operandDepth ≠ 0 := by
    show (below.push o).size - f.stackBase ≠ 0
    rw [Array.size_push]
    omega
  refine onThread_of_ok ?_
  rw [Thread.popOperand, if_neg depth]
  simp [Machine.amid]

/-- An operand below those of the frame is not popped. -/
theorem popOperand_none (spent : operands.size ≤ f.stackBase) :
    popOperand s (m.amid f rest operands events pc) =
      .error (.fault .stackUnderflow) (m.amid f rest operands events pc) := by
  have depth : (m.amid f rest operands events pc).thread.operandDepth = 0 :=
    Nat.sub_eq_zero_of_le spent
  refine onThread_of_error ?_
  rw [Thread.popOperand, if_pos depth]

theorem pop_run (o : Operand) (own : f.stackBase ≤ below.size) :
    pop s (m.amid f rest (below.push o) events pc) =
      .ok o.value (m.amid f rest below events pc) :=
  bind_of_ok (popOperand_run o own)

/-- The top operand is popped as an int. -/
theorem popInt_run {o : Operand} {n : Int32} (own : f.stackBase ≤ below.size)
    (int : o.value.asInt = .ok n) : popInt s (m.amid f rest (below.push o) events pc) =
      .ok n (m.amid f rest below events pc) := by
  refine (bind_of_ok (pop_run o own)).trans ?_
  rw [int]
  rfl

/-- The top operand is popped as a long. -/
theorem popLong_run {o : Operand} {n : Int64} (own : f.stackBase ≤ below.size)
    (long : o.value.asLong = .ok n) : popLong s (m.amid f rest (below.push o) events pc) =
      .ok n (m.amid f rest below events pc) := by
  refine (bind_of_ok (pop_run o own)).trans ?_
  rw [long]
  rfl

/-- Ints are popped from the top on. -/
theorem collectTimes_popInt_run {os : List Operand} {ints : List Int32}
    (own : f.stackBase ≤ below.size)
    (values : List.Forall₂ (fun o n => o.value.asInt = .ok n) os ints) :
    ∀ results, collectTimes popInt ints.length results s
        (m.amid f rest (below ++ os.reverse.toArray) events pc) =
      .ok (results ++ ints.toArray) (m.amid f rest below events pc) := by
  induction values with
  | nil =>
      intro results
      simp [collectTimes]
  | @cons o n os ints first _ ih =>
      intro results
      have top : below ++ (o :: os).reverse.toArray = (below ++ os.reverse.toArray).push o := by
        simp
      have own' : f.stackBase ≤ (below ++ os.reverse.toArray).size := by
        rw [Array.size_append]
        omega
      rw [List.length_cons, collectTimes, top, bind_of_ok (popInt_run own' first), ih]
      simp

end Exec

end JavaMachine
