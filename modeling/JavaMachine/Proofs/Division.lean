import JavaMachine.Proofs.FieldTypes
import JavaMachine.Proofs.Forward
import JavaMachine.Proofs.Raising
import Mathlib.Algebra.Order.Group.Unbundled.Int

/-!
# Division of integers

A division of integers truncates, and its remainder goes with it.  Both instructions of a kind are
followed here, on ints and on longs at once.

*The law.*  Quotient and remainder of two words are tied together as words and, but for one pair, as
numbers (`Divides`).  The pair is the least number and minus one, where the quotient would be one
too great.  It wraps around to the least number again, and nothing traps.

*By zero.*  Both operands are gone and nothing is pushed when the exception is raised.  It becomes
pending if there is room for it, and the memory error otherwise.
-/

namespace JavaMachine

/-! ## The law -/

/-- A quotient and a remainder of words go with a dividend and a divisor. -/
structure Divides {w : Nat} (a b q r : BitVec w) : Prop where
  /-- They add up as words. -/
  word : q * b + r = a
  /-- The remainder is the smaller one as a number. -/
  small : |r.toInt| < |b.toInt|
  /-- The remainder is zero or has the sign of the dividend. -/
  sign : r = 0#w ∨ r.toInt.sign = a.toInt.sign
  /-- They add up as numbers, but for one pair. -/
  exact : ¬(a = .intMin w ∧ b = -1#w) → q.toInt * b.toInt + r.toInt = a.toInt
  /-- That pair has the quotient wrapped around. -/
  wraps : a = .intMin w → b = -1#w → q = .intMin w ∧ r = 0#w

section Law

variable {w : Nat} {a b : BitVec w}

/-- But for one pair, quotient and remainder add up as numbers. -/
theorem sdiv_mul_add_srem (ordinary : ¬(a = .intMin w ∧ b = -1#w)) :
    (a.sdiv b).toInt * b.toInt + (a.srem b).toInt = a.toInt := by
  rw [BitVec.toInt_sdiv_of_ne_or_ne a b (not_and_or.mp ordinary), BitVec.toInt_srem]
  exact Int.tdiv_mul_add_tmod _ _

/-- Everything is a multiple of minus one. -/
theorem srem_neg_one : a.srem (-1#w) = 0#w := by
  refine BitVec.eq_of_toInt_eq ?_
  rw [BitVec.toInt_srem, BitVec.toInt_zero, BitVec.neg_one_eq_allOnes, BitVec.toInt_allOnes]
  split
  · rw [Int.tmod_neg, Int.tmod_one]
  next empty =>
    obtain rfl := Nat.eq_zero_of_not_pos empty
    rw [BitVec.eq_nil a]
    rfl

/-- Truncating division obeys the law. -/
theorem divides_sdiv_srem (nonzero : b ≠ 0#w) : Divides a b (a.sdiv b) (a.srem b) where
  word := by
    by_cases extreme : a = .intMin w ∧ b = -1#w
    · obtain ⟨rfl, rfl⟩ := extreme
      rw [BitVec.intMin_sdiv_neg_one, srem_neg_one]
      -- the negation of the least word is that word
      simp
    · refine BitVec.eq_of_toInt_eq ?_
      rw [BitVec.toInt_add, BitVec.toInt_mul, Int.bmod_add_bmod, sdiv_mul_add_srem extreme,
        BitVec.toInt_bmod_cancel]
  small := by
    have divisor : b.toInt.natAbs ≠ 0 := fun zero =>
      nonzero (BitVec.eq_of_toInt_eq (by rw [Int.natAbs_eq_zero.mp zero, BitVec.toInt_zero]))
    rw [BitVec.toInt_srem, Int.abs_eq_natAbs, Int.abs_eq_natAbs, Int.natAbs_tmod, Int.ofNat_lt]
    exact Nat.mod_lt _ (Nat.pos_of_ne_zero divisor)
  sign := by
    rw [BitVec.toInt_srem, Int.sign_tmod]
    by_cases whole : b.toInt ∣ a.toInt
    · refine .inl (BitVec.eq_of_toInt_eq ?_)
      rw [BitVec.toInt_srem, Int.tmod_eq_zero_of_dvd whole, BitVec.toInt_zero]
    · exact .inr (if_neg whole)
  exact := sdiv_mul_add_srem
  wraps least one := by
    subst least one
    exact ⟨BitVec.intMin_sdiv_neg_one, srem_neg_one⟩

end Law

/-! ## The instructions -/

/-- What a division is done for. -/
inductive DivOp where
  | quotient
  | remainder
  deriving Repr, DecidableEq

namespace DivOp

/-- The operation. -/
def op : DivOp → ArithOp
  | quotient => .div
  | remainder => .rem

/-- The result. -/
def result {w : Nat} : DivOp → BitVec w → BitVec w → BitVec w
  | quotient => BitVec.sdiv
  | remainder => BitVec.srem

end DivOp

namespace WordKind

/-- The width of a kind. -/
@[reducible] def bits : WordKind → Nat
  | int => 32
  | long => 64

/-- A kind of integers as a kind of numbers. -/
def number : WordKind → NumberKind
  | int => .int
  | long => .long

/-- The word that a value is as an operand. -/
def read : (k : WordKind) → Value → Except Fault (BitVec k.bits)
  | int, v => v.asInt.map Int32.toBitVec
  | long, v => v.asLong.map Int64.toBitVec

/-- A word as a value. -/
def value : (k : WordKind) → BitVec k.bits → Value
  | int, a => .int (.ofBitVec a)
  | long, a => .long (.ofBitVec a)

/-- The byte of a division. -/
def byteOf : WordKind → DivOp → UInt8
  | int, .quotient => 0x6c
  | long, .quotient => 0x6d
  | int, .remainder => 0x70
  | long, .remainder => 0x71

theorem read_int {v : Value} {a : BitVec 32} (h : int.read v = .ok a) :
    v.asInt = .ok (.ofBitVec a) := by
  have h : v.asInt.map Int32.toBitVec = .ok a := h
  cases number : v.asInt with
  | ok n => rw [number] at h; cases h; rfl
  | error e => rw [number] at h; cases h

theorem read_long {v : Value} {a : BitVec 64} (h : long.read v = .ok a) :
    v.asLong = .ok (.ofBitVec a) := by
  have h : v.asLong.map Int64.toBitVec = .ok a := h
  cases number : v.asLong with
  | ok n => rw [number] at h; cases h; rfl
  | error e => rw [number] at h; cases h

end WordKind

namespace Exec

variable {k : WordKind} {d : DivOp} {s : Settings} {m : Machine} {f : Frame} {rest : List Frame}
  {below : Array Operand} {x y : Operand} {a b : BitVec k.bits} {events : Array Event} {pc : Nat}

theorem perform_division (host : Host) (k : WordKind) (d : DivOp) :
    perform host (Opcode.ofByte (k.byteOf d)) = do arith k.number d.op; return .next := by
  cases k <;> cases d <;> rfl

theorem intResult?_divOp (a b : BitVec 32) : intResult? d.op (.ofBitVec a) (.ofBitVec b) =
    if b = 0#32 then none else some (.ofBitVec (d.result a b)) := by
  have zero : (Int32.ofBitVec b = 0) = (b = 0#32) := propext Int32.toBitVec_inj.symm
  cases d with
  | quotient =>
      have divided : Int32.ofBitVec a / .ofBitVec b = .ofBitVec (a.sdiv b) :=
        Int32.toBitVec_inj.mp Int32.toBitVec_div
      simp only [DivOp.op, DivOp.result, intResult?, zero, divided]
  | remainder =>
      have divided : Int32.ofBitVec a % .ofBitVec b = .ofBitVec (a.srem b) :=
        Int32.toBitVec_inj.mp Int32.toBitVec_mod
      simp only [DivOp.op, DivOp.result, intResult?, zero, divided]

theorem longResult?_divOp (a b : BitVec 64) : longResult? d.op (.ofBitVec a) (.ofBitVec b) =
    if b = 0#64 then none else some (.ofBitVec (d.result a b)) := by
  have zero : (Int64.ofBitVec b = 0) = (b = 0#64) := propext Int64.toBitVec_inj.symm
  cases d with
  | quotient =>
      have divided : Int64.ofBitVec a / .ofBitVec b = .ofBitVec (a.sdiv b) :=
        Int64.toBitVec_inj.mp Int64.toBitVec_div
      simp only [DivOp.op, DivOp.result, longResult?, zero, divided]
  | remainder =>
      have divided : Int64.ofBitVec a % .ofBitVec b = .ofBitVec (a.srem b) :=
        Int64.toBitVec_inj.mp Int64.toBitVec_mod
      simp only [DivOp.op, DivOp.result, longResult?, zero, divided]

variable (s) (m) (rest) (events) (pc) in
/-- Both operands are popped.  Then the result is pushed, or the exception is raised. -/
theorem arith_run (first : k.read x.value = .ok a) (second : k.read y.value = .ok b)
    (own : f.stackBase ≤ below.size) :
    arith k.number d.op s (m.amid f rest ((below.push x).push y) events pc) =
      (if b = 0#k.bits then raiseDivisionByZero else push (k.value (d.result a b))) s
        (m.amid f rest below events pc) := by
  have own' := le_size_push own x
  cases k with
  | int =>
      unfold arith
      simp only [WordKind.number]
      rw [bind_of_ok (popInt_run own' (WordKind.read_int second)),
        bind_of_ok (popInt_run own (WordKind.read_int first)), intResult?_divOp]
      by_cases zero : b = 0#32
      · simp only [zero]
        rfl
      · simp only [zero]
        rfl
  | long =>
      unfold arith
      simp only [WordKind.number]
      rw [bind_of_ok (popLong_run own' (WordKind.read_long second)),
        bind_of_ok (popLong_run own (WordKind.read_long first)), longResult?_divOp]
      by_cases zero : b = 0#64
      · simp only [zero]
        rfl
      · simp only [zero]
        rfl

/-- A division pushes its result if the divisor is not zero. -/
theorem step_divides (host : Host) (bears : m.Bears f rest below [x, y])
    (first : k.read x.value = .ok a) (second : k.read y.value = .ok b) (nonzero : b ≠ 0#k.bits)
    (shown : f.Shows f.pc [k.byteOf d]) : step host s m =
      .ok .next (m.amid f rest (below.push ⟨k.value (d.result a b), f.pc⟩)
        (m.traced s f (k.byteOf d)) (f.pc + 1)) := by
  refine step_of_run (perform_division host k d) bears shown ?_
  refine (arith_run s m rest _ _ first second bears.own).trans ?_
  rw [if_neg nonzero]
  rfl

/-- A computation raises an exception of a class, and leaves the thread as given otherwise. -/
structure Raises (className : String) (x : Exec Flow) (s : Settings) (m : Machine) (t : Thread) :
    Prop where
  /-- If there is room for an entry, the exception is pending then, and the memory error
  otherwise. -/
  ends : ∀ {flow m'}, x s m = .ok flow m' → flow = .next ∧ ∃ exception,
    m'.thread = { t with pending := some exception } ∧
    (m.world.heap.HasRoom 1 → m'.world.heap.typeName (.object exception) = .ok className) ∧
    (¬ m.world.heap.HasRoom 1 →
      m'.world.heap.typeName (.object exception) = .ok Throwable.outOfMemoryError)
  /-- It ends if the world is stocked with what exceptions need. -/
  answers : m.world.Stocked → ∃ m', x s m = .ok .next m'
  /-- It fails if the class is missing. -/
  lacking : m.world.library.find? className = none →
    ∃ m', x s m = .error (.fault (.classNotFound className)) m'

/-- A division by zero raises an exception when the operands are popped. -/
theorem step_zero (host : Host) (bears : m.Bears f rest below [x, y])
    (first : k.read x.value = .ok a) (second : k.read y.value = .ok 0#k.bits)
    (shown : f.Shows f.pc [k.byteOf d]) (arena : m.world.heap.Arena) :
    Raises Throwable.arithmeticException (step host) s m
      (m.amid f rest below (m.traced s f (k.byteOf d)) (f.pc + 1)).thread := by
  have other : Throwable.arithmeticException ≠ Throwable.outOfMemoryError := by decide
  let popped := m.amid f rest below (m.traced s f (k.byteOf d)) (f.pc + 1)
  have zero : step host s m = (do raiseDivisionByZero; return Flow.next) s popped := by
    have run := arith_run (d := d) s m rest (m.traced s f (k.byteOf d)) (f.pc + 1) first second
      bears.own
    rw [if_pos rfl] at run
    have top : m.thread.operands = (below.push x).push y := bears.top
    rw [step, bind_of_ok (fetch_traced bears.current shown), perform_division, top]
    exact bind_of_same run
  refine ⟨fun {flow m'} run => ?_, fun stocked => ?_, fun missing => ?_⟩
  · rw [zero] at run
    obtain ⟨_, last, raised, done⟩ := bind_eq_ok run
    cases done
    exact ⟨rfl, raise_pends (m := popped) arena other raised⟩
  · obtain ⟨m', raised⟩ :=
      raise_made (s := s) (m := popped) { stocked with } other (some "/ by zero")
    exact ⟨m', zero.trans (bind_of_ok raised)⟩
  · obtain ⟨events, failed⟩ :=
      raise_lacking (s := s) (m := popped) missing other (some "/ by zero")
    exact ⟨_, zero.trans (bind_of_error failed)⟩

/-- Division of integers is total and exact.  Let two ints or two longs be the top operands of the
current frame.  If the divisor is not zero, the two instructions push a quotient and a remainder
that go with the words, at the address of the instruction and in the place of the operands, and
nothing else has changed.  If it is zero, both operands are popped, nothing is pushed and the
exception of arithmetic is raised. -/
theorem division_exact (host : Host) (s : Settings) (k : WordKind) {a b : BitVec k.bits}
    (bears : m.Bears f rest below [x, y]) (first : k.read x.value = .ok a)
    (second : k.read y.value = .ok b) (arena : m.world.heap.Arena) :
    (b ≠ 0#k.bits → ∃ q r, Divides a b q r ∧
      (f.Shows f.pc [k.byteOf .quotient] → step host s m =
        .ok .next (m.amid f rest (below.push ⟨k.value q, f.pc⟩)
          (m.traced s f (k.byteOf .quotient)) (f.pc + 1))) ∧
      (f.Shows f.pc [k.byteOf .remainder] → step host s m =
        .ok .next (m.amid f rest (below.push ⟨k.value r, f.pc⟩)
          (m.traced s f (k.byteOf .remainder)) (f.pc + 1)))) ∧
    (b = 0#k.bits → ∀ d : DivOp, f.Shows f.pc [k.byteOf d] →
      Raises Throwable.arithmeticException (step host) s m
        { m.thread with
          frames := { f with pc := f.pc + 1, instructionPc := f.pc } :: rest
          operands := below }) := by
  refine ⟨fun nonzero => ⟨a.sdiv b, a.srem b, divides_sdiv_srem nonzero,
    step_divides (d := .quotient) host bears first second nonzero,
    step_divides (d := .remainder) host bears first second nonzero⟩, ?_⟩
  rintro rfl d shown
  exact step_zero host bears first second shown arena

end Exec

namespace Sample

/-- A world in which the bootstrap classes are registered. -/
def furnished (capacity : Option Nat) : World := { gauged.world with heap := { capacity } }

theorem furnished_heap (capacity : Option Nat) : (furnished capacity).heap = { capacity } := by
  simp only [furnished]

theorem furnished_stocked (capacity : Option Nat) : (furnished capacity).Stocked where
  boot := by
    have library : (furnished capacity).library = gauged.world.library := by simp only [furnished]
    rw [library]
    exact fun spec listed _ => Bootstrap.defineAll_provides gauged_registered (by decide +kernel)
      (List.mem_append_left _ listed)
  memo {key f} known := by
    have registered : gauged.world.Registered :=
      Bootstrap.defineAll_registered gauged_registered
        (World.Blank.registered ⟨rfl, rfl, rfl, rfl⟩)
    simp only [furnished, registered.memo, List.lookup_nil] at known
    cases known
  arena := furnished_heap capacity ▸ .blank capacity none

/-- A machine in front of an instruction with two operands. -/
def binary (w : World) (byte : UInt8) (x y : Value) : Machine :=
  ⟨w, { id := 0, frames := [frame [byte, 0xb1] [] 0], operands := #[⟨x, 0⟩, ⟨y, 0⟩] }⟩

theorem binary_bears (w : World) (byte : UInt8) (x y : Value) :
    (binary w byte x y).Bears (frame [byte, 0xb1] [] 0) [] #[] [⟨x, 0⟩, ⟨y, 0⟩] :=
  ⟨rfl, rfl, Nat.le_refl 0⟩

end Sample

namespace Exec

/-- The least int divided by minus one is itself, without a remainder, and the remainder of a long
has the sign of the dividend.  A division by zero ends with an exception. -/
theorem division_exact_pairs :
    let host : Host := ⟨Engine.reentry [] 0, []⟩
    let zero := Sample.binary (Sample.furnished none) 0x6c (.int 1) (.int 0)
    (∃ m', step host {} (Sample.binary {} 0x6c (.int (-2147483648)) (.int (-1))) = .ok .next m' ∧
      m'.thread.operands = #[⟨.int (-2147483648), 0⟩]) ∧
    (∃ m', step host {} (Sample.binary {} 0x71 (.long (-7)) (.long 2)) = .ok .next m' ∧
      m'.thread.operands = #[⟨.long (-1), 0⟩]) ∧
    ∃ m' exception, step host {} zero = .ok .next m' ∧ m'.thread.operands = #[] ∧
      m'.thread.pending = some exception ∧
      m'.world.heap.typeName (.object exception) = .ok Throwable.arithmeticException := by
  intro host zero
  have arena : ({} : World).heap.Arena := .blank none none
  refine ⟨?_, ?_, ?_⟩
  · obtain ⟨divided, -⟩ := division_exact host {} .int (a := .intMin 32) (b := -1#32)
      (Sample.binary_bears {} 0x6c (.int (-2147483648)) (.int (-1))) rfl rfl arena
    obtain ⟨q, r, divides, quotient, -⟩ := divided (by decide)
    obtain ⟨rfl, rfl⟩ := divides.wraps rfl rfl
    exact ⟨_, quotient ⟨[0xb1], rfl⟩, rfl⟩
  · obtain ⟨divided, -⟩ := division_exact host {} .long (a := -7#64) (b := 2#64)
      (Sample.binary_bears {} 0x71 (.long (-7)) (.long 2)) rfl rfl arena
    obtain ⟨q, r, divides, -, remainder⟩ := divided (by decide)
    have odd : r.toInt = -1 := by
      have exact : q.toInt * 2 + r.toInt = -7 := divides.exact (by decide)
      have small : |r.toInt| < 2 := divides.small
      have sign : r = 0#64 ∨ r.toInt.sign = -1 := divides.sign
      rw [abs_lt] at small
      obtain rfl | negative := sign
      · rw [BitVec.toInt_zero] at exact
        omega
      · have below := Int.sign_eq_neg_one_iff_neg.mp negative
        omega
    obtain rfl : r = -1#64 := BitVec.eq_of_toInt_eq odd
    exact ⟨_, remainder ⟨[0xb1], rfl⟩, rfl⟩
  · have stocked : zero.world.Stocked := Sample.furnished_stocked none
    obtain ⟨-, raised⟩ := division_exact host {} .int (a := 1#32) (b := 0#32)
      (Sample.binary_bears (Sample.furnished none) 0x6c (.int 1) (.int 0)) rfl rfl stocked.arena
    have raises := raised rfl .quotient ⟨[0xb1], rfl⟩
    obtain ⟨m', run⟩ := raises.answers stocked
    obtain ⟨-, exception, thread, named, -⟩ := raises.ends run
    refine ⟨m', exception, run, by rw [thread], by rw [thread], named (.of_unbounded ?_ 1)⟩
    exact congrArg Heap.capacity (Sample.furnished_heap none)

/-- With a full heap a division by zero leaves the memory error pending, and without the classes of
exceptions it fails. -/
theorem division_starved :
    let host := Engine.host coreNatives 1
    (∃ m' exception,
      step host {} (Sample.binary (Sample.furnished (some 0)) 0x6c (.int 1) (.int 0)) =
        .ok .next m' ∧ m'.thread.pending = some exception ∧
      m'.world.heap.typeName (.object exception) = .ok Throwable.outOfMemoryError ∧
      m'.world.heap.typeName (.object exception) ≠ .ok Throwable.arithmeticException) ∧
    ∃ m', step host {} (Sample.binary {} 0x6c (.int 1) (.int 0)) =
      .error (.fault (.classNotFound Throwable.arithmeticException)) m' := by
  intro host
  have raises (w : World) (arena : w.heap.Arena) :=
    step_zero (s := {}) (d := .quotient) (k := .int) (a := 1#32) host
      (Sample.binary_bears w 0x6c (.int 1) (.int 0)) rfl rfl ⟨[0xb1], rfl⟩ arena
  constructor
  · have stocked := Sample.furnished_stocked (some 0)
    have full : ¬ (Sample.furnished (some 0)).heap.HasRoom 1 := by
      rw [Sample.furnished_heap]
      exact fun room => absurd (room 0 rfl) (by decide)
    have raises := raises _ stocked.arena
    obtain ⟨m', run⟩ := raises.answers stocked
    obtain ⟨-, exception, thread, -, error⟩ := raises.ends run
    refine ⟨m', exception, run, by rw [thread], error full, ?_⟩
    rw [error full]
    decide
  · exact (raises {} (.blank none none)).lacking rfl

end Exec

end JavaMachine
