import JavaMachine.Proofs.ArrayCopies
import JavaMachine.Proofs.Forward
import JavaMachine.Proofs.Initialisation
import JavaMachine.Proofs.Layouts
import Mathlib.Algebra.Ring.Int.Defs

/-!
# Narrowing of ints

On the stack a boolean, a byte, a character and a short are ints.  An int that is to be one of them
is reduced: to its low bit, to its low eight or sixteen bits with a sign, or to its low sixteen bits
without a sign.  `IntType.number` says this of numbers, and everything else is compared with it.

*Three ways of reducing.*  A conversion, a field and a result mask or cast the int.  An array holds
elements of a kind of their own, which become ints again when they are loaded.  Each way is the
reduction as numbers (`coerceTo_reduce`, `primitiveElement_reduce`, `narrow_reduce`).

*Through the memory.*  What was stored is what is loaded behind it, as long as nothing else was
stored there.  Each store is followed forward to the operand that the load pushes.
-/

namespace JavaMachine

/-! ## Reduction -/

/-- The types whose values are ints on the stack. -/
inductive IntType where
  | boolean
  | byte
  | char
  | short
  | int

namespace IntType

/-- The type as fields and results declare it. -/
def type : IntType → JType
  | boolean => .boolean
  | byte => .byte
  | char => .char
  | short => .short
  | int => .int

/-- A number reduced to the values of a type. -/
def number : IntType → Int → Int
  | boolean, n => n % 2
  | byte, n => n.bmod (2 ^ 8)
  | char, n => n % 2 ^ 16
  | short, n => n.bmod (2 ^ 16)
  | int, n => n

/-- An int reduced to the values of a type. -/
def reduce (t : IntType) (v : Int32) : Int32 := .ofInt (t.number v.toInt)

theorem toInt_reduce (t : IntType) (v : Int32) : (t.reduce v).toInt = t.number v.toInt := by
  have low := v.le_toInt
  have high := v.toInt_lt
  have within : -2 ^ 31 ≤ t.number v.toInt ∧ t.number v.toInt < 2 ^ 31 := by
    cases t <;> simp only [number, Int.bmod] <;> omega
  rw [reduce, Int32.toInt_ofInt_of_le within.1 within.2]

/-- What was reduced stays what it is. -/
theorem reduce_reduce (t : IntType) (v : Int32) : t.reduce (t.reduce v) = t.reduce v := by
  have again (n : Int) : t.number (t.number n) = t.number n := by
    cases t with
    | boolean | char => exact Int.emod_emod_of_dvd n (Int.dvd_refl _)
    | byte | short => exact Int.bmod_bmod
    | int => rfl
  rw [← Int32.toInt_inj, toInt_reduce, toInt_reduce, again]

/-! ### Casts -/

theorem reduce_int (v : Int32) : int.reduce v = v := Int32.ofInt_toInt v

theorem reduce_byte (v : Int32) : byte.reduce v = v.toInt8.toInt32 := by
  rw [← Int32.toInt_inj, toInt_reduce, Int8.toInt_toInt32, Int32.toInt_toInt8]
  rfl

theorem reduce_short (v : Int32) : short.reduce v = v.toInt16.toInt32 := by
  rw [← Int32.toInt_inj, toInt_reduce, Int16.toInt_toInt32, Int32.toInt_toInt16]
  rfl

/-- An int and its bits as a number without a sign. -/
theorem toInt_cases (v : Int32) : v.toInt = v.toBitVec.toNat ∧ v.toBitVec.toNat < 2 ^ 31 ∨
    v.toInt = v.toBitVec.toNat - 2 ^ 32 ∧ 2 ^ 31 ≤ v.toBitVec.toNat := by
  have bits := v.toBitVec.isLt
  rw [Int32.toInt, BitVec.toInt_eq_toNat_cond]
  split <;> omega

theorem reduce_char (v : Int32) : char.reduce v = v.toUInt32.toUInt16.toUInt32.toInt32 := by
  have kept : v.toUInt32.toUInt16.toUInt32.toInt32.toBitVec.toNat = v.toBitVec.toNat % 2 ^ 16 := by
    show v.toUInt32.toUInt16.toUInt32.toNat = v.toUInt32.toNat % 2 ^ 16
    rw [UInt16.toNat_toUInt32, UInt32.toNat_toUInt16]
  have := toInt_cases v
  have := toInt_cases v.toUInt32.toUInt16.toUInt32.toInt32
  rw [← Int32.toInt_inj, toInt_reduce, number]
  omega

/-! ### Masks -/

/-- A mask of low bits, the sign not among them, takes the remainder. -/
theorem toInt_and {k : Nat} (few : k < 32) {mask : Int32} (bits : mask.toBitVec.toNat = 2 ^ k - 1)
    (v : Int32) : (v &&& mask).toInt = (v.toBitVec.toNat % 2 ^ k : Nat) := by
  have masked : (v &&& mask).toBitVec.toNat = v.toBitVec.toNat % 2 ^ k := by
    rw [Int32.toBitVec_and, BitVec.toNat_and, bits, Nat.and_two_pow_sub_one_eq_mod]
  have small : 2 ^ k ≤ 2 ^ 31 := Nat.pow_le_pow_right (by decide) (Nat.le_of_lt_succ few)
  have below : v.toBitVec.toNat % 2 ^ k < 2 ^ k := Nat.mod_lt _ (Nat.two_pow_pos k)
  obtain ⟨same, -⟩ | ⟨-, large⟩ := toInt_cases (v &&& mask)
  · rw [same, masked]
  · omega

theorem reduce_char_mask (v : Int32) : char.reduce v = Value.narrowChar v := by
  have := toInt_cases v
  rw [Value.narrowChar, ← Int32.toInt_inj, toInt_reduce, toInt_and (k := 16) (by decide) rfl,
    number]
  omega

theorem reduce_boolean_mask (v : Int32) : boolean.reduce v = Value.narrowBoolean v := by
  have := toInt_cases v
  rw [Value.narrowBoolean, ← Int32.toInt_inj, toInt_reduce, toInt_and (k := 1) (by decide) rfl,
    number]
  omega

theorem reduce_boolean (v : Int32) :
    boolean.reduce v = if (v &&& 1 != 0) = true then 1 else 0 := by
  rw [reduce_boolean_mask]
  obtain zero | one := Value.narrowBoolean_cases v
  · rw [Value.narrowBoolean] at zero ⊢
    rw [zero]
    rfl
  · rw [Value.narrowBoolean] at one ⊢
    rw [one]
    rfl

/-! ### The ways of reducing -/

variable {w : Value} {v : Int32}

/-- A field or a result of a type takes the reduced int. -/
theorem coerceTo_reduce (t : IntType) (int : w.asInt = .ok v) :
    w.coerceTo t.type = .ok (.int (t.reduce v)) := by
  cases t with
  | boolean => rw [reduce_boolean_mask, type, Value.coerceTo, int]; rfl
  | byte => rw [reduce_byte, type, Value.coerceTo, int]; rfl
  | char => rw [reduce_char_mask, type, Value.coerceTo, int]; rfl
  | short => rw [reduce_short, type, Value.coerceTo, int]; rfl
  | int => rw [reduce_int, type, Value.coerceTo, int]; rfl

/-- The kind of elements that the instructions for a type name: those for bytes serve booleans. -/
def kind : IntType → ElementKind
  | boolean | byte => .byte
  | char => .char
  | short => .short
  | int => .int

/-- The descriptor of the arrays of a type. -/
def arrayDescriptor (t : IntType) : String := "[" ++ t.type.descriptor

/-- What an array of a type holds for an int is loaded as the reduced int. -/
theorem primitiveElement_reduce (t : IntType) (int : w.asInt = .ok v) :
    ∃ x, Exec.primitiveElement t.kind t.arrayDescriptor w = .ok x ∧
      Exec.elementOperand t.kind x = .ok (.int (t.reduce v)) := by
  cases t with
  | boolean =>
      refine ⟨.bool (v &&& 1 != 0), ?_, by rw [reduce_boolean]; rfl⟩
      have named : ElementKind.ofDescriptor
          (String.ofList boolean.arrayDescriptor.toList.tail) = .boolean := by decide
      rw [kind, Exec.primitiveElement, named, int]
      rfl
  | byte =>
      refine ⟨.byte v.toInt8, ?_, by rw [reduce_byte]; rfl⟩
      have named : ElementKind.ofDescriptor
          (String.ofList byte.arrayDescriptor.toList.tail) = .byte := by decide
      rw [kind, Exec.primitiveElement, named, int]
      rfl
  | char =>
      refine ⟨.char v.toUInt32.toUInt16, ?_, by rw [reduce_char]; rfl⟩
      rw [kind, Exec.primitiveElement, int]
      rfl
  | short =>
      refine ⟨.short v.toInt16, ?_, by rw [reduce_short]; rfl⟩
      rw [kind, Exec.primitiveElement, int]
      rfl
  | int =>
      refine ⟨.int v, ?_, by rw [reduce_int]; rfl⟩
      rw [kind, Exec.primitiveElement, int]
      rfl

end IntType

/-! ## Opcodes -/

namespace IntType

/-- The opcode that stores into an array of the type. -/
def storeByte : IntType → UInt8
  | boolean | byte => 0x54
  | char => 0x55
  | short => 0x56
  | int => 0x4f

/-- The opcode that loads from an array of the type. -/
def loadByte : IntType → UInt8
  | boolean | byte => 0x33
  | char => 0x34
  | short => 0x35
  | int => 0x2e

end IntType

namespace NarrowKind

/-- The type that a conversion is to. -/
def type : NarrowKind → IntType
  | byte => .byte
  | char => .char
  | short => .short

/-- The opcode. -/
def byteOf : NarrowKind → UInt8
  | byte => 0x91
  | char => 0x92
  | short => 0x93

end NarrowKind

/-! ## Elements of arrays -/

/-- An array has an element at an index. -/
theorem Heap.loadElement_eq_ok {h : Heap} {r : Handle} {index : Int32} {x : Value}
    (loaded : h.loadElement r index = .ok (some x)) :
    ∃ e i, h.array r = .ok e ∧ place? e.elements.size index = some i ∧ e.elements[i]? = some x := by
  rw [loadElement] at loaded
  cases found : h.array r with
  | error fault =>
      rw [found] at loaded
      cases loaded
  | ok e =>
      rw [found] at loaded
      obtain ⟨i, place, element⟩ := Option.bind_eq_some_iff.mp (Except.ok.inj loaded)
      exact ⟨e, i, rfl, place, element⟩

theorem Heap.loadElement_of_array {h : Heap} {r : Handle} {e : ArrayEntry} (index : Int32)
    (found : h.array r = .ok e) :
    h.loadElement r index = .ok ((place? e.elements.size index).bind (e.elements[·]?)) := by
  rw [loadElement, found]
  rfl

/-- What is stored at an index is there. -/
theorem Heap.loadElement_replaced {h : Heap} {r : Handle} {e : ArrayEntry} {index : Int32} {i : Nat}
    (found : h.array r = .ok e) (place : place? e.elements.size index = some i) (x : Value) :
    (h.replace r (.array { e with elements := e.elements.setIfInBounds i x })).loadElement r index =
      .ok (some x) := by
  rw [loadElement_of_array index (array_replaced found)]
  dsimp only
  rw [Array.size_setIfInBounds, place, Option.bind_some,
    Array.getElem?_setIfInBounds_self_of_lt (place?_lt place)]

namespace Exec

variable {s : Settings} {m : Machine} {f : Frame} {rest : List Frame}
  {below : Array Operand} {events : Array Event} {pc : Nat}

/-! ### Elements -/

section Elements

variable {h : Handle} {index : Int32} {a i o : Operand} {e : ArrayEntry} {k : Nat} {x y : Value}
  {kind : ElementKind}

theorem popArrayAt_run (own : f.stackBase ≤ below.size) (array : a.value = .array h)
    (found : m.world.heap.array h = .ok e) (place : Heap.place? e.elements.size index = some k) :
    popArrayAt index s (m.amid f rest (below.push a) events pc) =
      .ok (some h) (m.amid f rest below events pc) := by
  have length : (m.amid f rest below events pc).world.heap.arrayLength h =
      .ok e.elements.size := by
    show m.world.heap.arrayLength h = _
    rw [Heap.arrayLength, found]
    rfl
  rw [popArrayAt, bind_of_ok (pop_run a own), array]
  dsimp only
  rw [bind_of_ok heap_run, length]
  refine (bind_of_ok (a := e.elements.size) rfl).trans ?_
  rw [place]
  rfl

/-- An element is loaded as an operand. -/
theorem arrayLoad_run (own : f.stackBase ≤ below.size) (array : a.value = .array h)
    (int : i.value.asInt = .ok index) (loaded : m.world.heap.loadElement h index = .ok (some x))
    (operand : elementOperand kind x = .ok y) :
    arrayLoad kind s (m.amid f rest ((below.push a).push i) events pc) =
      .ok () (m.amid f rest (below.push ⟨y, f.pc⟩) events pc) := by
  obtain ⟨e, k, found, place, -⟩ := Heap.loadElement_eq_ok loaded
  have base := le_size_push own a
  have there : (m.amid f rest below events pc).world.heap.loadElement h index = .ok (some x) :=
    loaded
  rw [arrayLoad, bind_of_ok (popInt_run base int), bind_of_ok (popArrayAt_run own array found place)]
  dsimp only
  rw [bind_of_ok heap_run, there]
  refine (bind_of_ok (a := some x) rfl).trans ?_
  dsimp only
  rw [operand]
  rfl

variable (s) (m) (rest) (events) (pc) in
/-- A value is stored as an element of an array of primitive elements. -/
theorem arrayStore_run (own : f.stackBase ≤ below.size) (array : a.value = .array h)
    (int : i.value.asInt = .ok index) (found : m.world.heap.array h = .ok e)
    (place : Heap.place? e.elements.size index = some k) (primitive : kind ≠ .reference)
    (element : primitiveElement kind e.descriptor o.value = .ok x) :
    ∃ m', arrayStore kind s (m.amid f rest (((below.push a).push i).push o) events pc) = .ok () m' ∧
      m'.thread.operands = below ∧ m'.world.heap.loadElement h index = .ok (some x) := by
  have base := le_size_push own a
  have base' := le_size_push base i
  have described : (m.amid f rest below events pc).world.heap.arrayDescriptor h =
      .ok e.descriptor := by
    show m.world.heap.arrayDescriptor h = _
    rw [Heap.arrayDescriptor, found]
    rfl
  have stored : (m.amid f rest below events pc).world.heap.storeElement h index x =
      .ok (true, m.world.heap.replace h
        (.array { e with elements := e.elements.setIfInBounds k x })) :=
    Heap.storeElement_inside found place x
  have there : (m.amid f rest below events pc).world.heap.array h = .ok e := found
  have run : arrayStore kind s (m.amid f rest (((below.push a).push i).push o) events pc) =
      storeFitting kind h index e.descriptor x none s (m.amid f rest below events pc) := by
    rw [arrayStore, bind_of_ok (pop_run o base'), bind_of_ok (popInt_run base int),
      bind_of_ok (popArrayAt_run own array found place)]
    dsimp only
    rw [bind_of_ok heap_run, described]
    refine (bind_of_ok (a := e.descriptor) rfl).trans ?_
    rw [element]
    refine (bind_of_ok (a := x) rfl).trans ?_
    rw [if_neg primitive]
    rfl
  obtain ⟨heap, replaced⟩ : ∃ heap, heap = m.world.heap.replace h
      (.array { e with elements := e.elements.setIfInBounds k x }) := ⟨_, rfl⟩
  have loaded : heap.loadElement h index = .ok (some x) :=
    replaced ▸ Heap.loadElement_replaced found place x
  rw [← replaced] at stored
  have fitted : storeFitting kind h index e.descriptor x none s (m.amid f rest below events pc) =
      (do modifyWorld fun w => { w with
            heap
            crossings := w.crossings + crossing kind e.kind
            lapses := w.lapses.mix (mixing kind e.kind) } : Exec Unit) s
        (m.amid f rest below events pc) := by
    rw [storeFitting, bind_of_ok heap_run, there]
    refine (bind_of_ok (a := e) rfl).trans ?_
    rw [bind_of_ok heap_run, stored]
    rfl
  exact ⟨_, run.trans (fitted.trans (modifyWorld_run _)), rfl, loaded⟩

end Elements

end Exec

/-! ### Fields -/

/-- In front of the frame is an instruction that names a field of a known class. -/
structure Machine.FacesField (m : Machine) (f : Frame) (opcode : UInt8) (r : FieldRef) : Prop where
  /-- The reference stands behind the opcode and means the field. -/
  named : ∃ index ref, f.Shows f.pc (opcode :: twoBytes index) ∧
    f.cls.pool.entry index = .ok (.field ref) ∧
    (∃ cls, m.world.library.find? ref.className = some cls) ∧
    (m.world.fieldMemo.lookup (ref.className, ref.name)).or
      (m.world.library.findField ref.className ref.name) = some r

/-- The class that declares a static field is in use. -/
def Machine.Serves (m : Machine) (r : FieldRef) : Prop :=
  r.decl.flags.isStatic = true ∧
    ∃ cls, m.world.library.find? r.decl.className = some cls ∧ m.Usable cls.id

/-- What the slot of a static field holds, if there is one. -/
def World.static? (w : World) (r : FieldRef) : Option Value :=
  (w.classStates[r.owner.id]?).bind (·.statics[r.index]?)

/-- What is stored into the slot of a static field is there. -/
theorem World.static?_stored {w : World} {r : FieldRef} {old : Value} (held : w.static? r = some old)
    (x : Value) :
    (((w.classStates.modify r.owner.id fun s =>
      { s with statics := s.statics.setIfInBounds r.index x })[r.owner.id]?).bind
        (·.statics[r.index]?)) = some x := by
  obtain ⟨state, there, slot⟩ := Option.bind_eq_some_iff.mp held
  have inside := (Array.getElem?_eq_some_iff.mp slot).1
  rw [Array.getElem?_modify, if_pos rfl, there, Option.map_some, Option.bind_some]
  exact Array.getElem?_setIfInBounds_self_of_lt inside

/-- The machine in which the reference to a field was read and resolved. -/
def Machine.behindField (m : Machine) (f : Frame) (rest : List Frame) (operands : Array Operand)
    (w : World) : Machine :=
  Machine.amid { m with world := w } f rest operands w.events (f.pc + 1 + 2)

/-- All that resolving a field changes are the memo, the number of searches and the reports. -/
def World.Recalls (w w' : World) : Prop :=
  ∃ events fieldWalks fieldMemo, w' = { w with events, fieldWalks, fieldMemo }

namespace Exec

section Fields

variable {s : Settings} {m : Machine} {f : Frame} {rest : List Frame}
  {operands below : Array Operand} {events : Array Event} {r : FieldRef} {o : Operand}
  {x : Value} {opcode : UInt8}

variable (s) (rest) (operands) (events) in
theorem readField_run (faces : m.FacesField f opcode r) : ∃ w, m.world.Recalls w ∧
    readField r.decl.flags.isStatic s (m.amid f rest operands events (f.pc + 1)) =
      .ok (some r) (m.behindField f rest operands w) := by
  obtain ⟨index, ref, shown, entry, ⟨cls, known⟩, means⟩ := faces.named
  obtain ⟨a, same⟩ : ∃ a, a = m.amid f rest operands events (f.pc + 1 + 2) := ⟨_, rfl⟩
  have world : a.world = { m.world with events } := same ▸ rfl
  have behind : f.Shows (f.pc + 1) (twoBytes index) := shown.back [opcode]
  have read : readFieldRef s (m.amid f rest operands events (f.pc + 1)) = .ok ref a := by
    rw [readFieldRef, bind_of_ok (readU16_run behind), bind_of_ok (frame_of_cons rfl), same]
    dsimp only
    rw [entry]
    rfl
  have found : resolveClass ref.className s a = .ok (some cls) a := by
    rw [resolveClass, bind_of_ok library_run, world]
    dsimp only
    rw [known]
    rfl
  obtain ⟨events', fieldWalks, fieldMemo, resolved⟩ :=
    resolveField_run (s := s) (m := a) ref.className ref.name
  rw [world, means] at resolved
  have reference : resolveFieldRef ref s a = .ok (some r) _ :=
    (bind_of_ok found).trans (bind_of_ok resolved)
  refine ⟨{ m.world with events := events', fieldWalks, fieldMemo }, ⟨_, _, _, rfl⟩, ?_⟩
  rw [readField, bind_of_ok read, bind_of_ok reference, same]
  dsimp only
  rw [if_pos rfl]
  rfl

variable (s) (rest) (operands) (events) in
theorem readStaticField_run (host : Host) (faces : m.FacesField f opcode r) (serves : m.Serves r) :
    ∃ w, m.world.Recalls w ∧
      readStaticField host s (m.amid f rest operands events (f.pc + 1)) =
        .ok (some r) (m.behindField f rest operands w) := by
  obtain ⟨static, cls, known, usable⟩ := serves
  obtain ⟨w, recalls, read⟩ := readField_run s rest operands events faces
  obtain ⟨b, same⟩ : ∃ b, b = m.behindField f rest operands w := ⟨_, rfl⟩
  have library : b.world.library = m.world.library := by
    obtain ⟨_, _, _, rfl⟩ := recalls
    exact same ▸ rfl
  have usable' : b.Usable cls.id := by
    obtain ⟨_, _, _, rfl⟩ := recalls
    exact same ▸ usable
  have found : findClass r.decl.className s b = .ok cls b := by
    rw [findClass, bind_of_ok library_run, library, Library.find, known]
    rfl
  have ready : ensureInitialised host cls s b = .ok true b := by
    rw [ensureInitialised, bind_of_ok library_run]
    exact ensureInitialisedWithin_usable _ usable'
  rw [static, ← same] at read
  refine ⟨w, recalls, ?_⟩
  rw [readStaticField, bind_of_ok read, ← same]
  dsimp only
  rw [bind_of_ok found, bind_of_ok ready]
  rfl

variable (s) (rest) (events) in
/-- A value is stored into a static field that has a slot. -/
theorem putStaticField_run (host : Host) (faces : m.FacesField f opcode r) (serves : m.Serves r)
    (own : f.stackBase ≤ below.size) (fits : o.value.coerceTo r.decl.type = .ok x)
    {old : Value} (held : m.world.static? r = some old) :
    ∃ m', putStaticField host s (m.amid f rest (below.push o) events (f.pc + 1)) = .ok () m' ∧
      m'.thread.operands = below ∧ m'.world.static? r = some x := by
  obtain ⟨w, recalls, read⟩ := readStaticField_run s rest (below.push o) events host faces serves
  have popped : pop s (m.behindField f rest (below.push o) w) =
      .ok o.value (m.behindField f rest below w) := pop_run o own
  have run : putStaticField host s (m.amid f rest (below.push o) events (f.pc + 1)) =
      (do useClass r.owner.id; setStatic r x : Exec Unit) s (m.behindField f rest below w) := by
    rw [putStaticField, bind_of_ok read]
    dsimp only
    rw [bind_of_ok popped, fits]
    rfl
  refine ⟨_, run.trans rfl, rfl, ?_⟩
  obtain ⟨_, _, _, rfl⟩ := recalls
  exact World.static?_stored held x

variable (s) (rest) (operands) (events) in
/-- What a static field holds is pushed. -/
theorem getStaticField_run (host : Host) (faces : m.FacesField f opcode r) (serves : m.Serves r)
    (held : m.world.static? r = some x) :
    ∃ m', getStaticField host s (m.amid f rest operands events (f.pc + 1)) = .ok () m' ∧
      m'.thread.operands = operands.push ⟨x, f.pc⟩ := by
  obtain ⟨w, recalls, read⟩ := readStaticField_run s rest operands events host faces serves
  have there : w.static? r = some x := by
    obtain ⟨_, _, _, rfl⟩ := recalls
    exact held
  obtain ⟨w', noted⟩ : ∃ w', w' = w.noting (.used r.owner.id m.thread.id (w.initState r.owner.id)) :=
    ⟨_, rfl⟩
  have used : useClass r.owner.id s (m.behindField f rest operands w) =
      .ok () (m.behindField f rest operands w') := noted ▸ rfl
  have known : getStatic r s (m.behindField f rest operands w') =
      .ok x (m.behindField f rest operands w') := by
    have same : w'.static? r = some x := noted ▸ there
    show EStateM.Result.ok ((w'.static? r).getD _) _ = _
    rw [same]
    rfl
  exact ⟨_, (bind_of_ok read).trans ((bind_of_ok used).trans (bind_of_ok known)), rfl⟩

variable (s) (rest) (events) in
/-- A value is stored into a field of an object that has it. -/
theorem putInstanceField_run {h : Handle} {a : Operand} {cls : LoadedClass} {slots : List Slot}
    (faces : m.FacesField f opcode r) (ofObjects : r.decl.flags.isStatic = false)
    (own : f.stackBase ≤ below.size) (object : a.value = .object h)
    (fits : o.value.coerceTo r.decl.type = .ok x) (found : m.world.heap.object h = .ok (cls, slots))
    (held : slots.any (·.holds r.decl) = true) :
    ∃ m', putInstanceField s (m.amid f rest ((below.push a).push o) events (f.pc + 1)) = .ok () m' ∧
      m'.thread.operands = below ∧ m'.world.heap.getField h r.decl = .ok x := by
  obtain ⟨w, recalls, read⟩ := readField_run s rest ((below.push a).push o) events faces
  have base := le_size_push own a
  have popped : pop s (m.behindField f rest ((below.push a).push o) w) =
      .ok o.value (m.behindField f rest (below.push a) w) := pop_run o base
  have popped' : pop s (m.behindField f rest (below.push a) w) =
      .ok a.value (m.behindField f rest below w) := pop_run a own
  have heap : w.heap = m.world.heap := by
    obtain ⟨_, _, _, rfl⟩ := recalls
    rfl
  obtain ⟨changed, replaced⟩ : ∃ changed, changed =
      m.world.heap.replace h (.object cls (Slot.store r.decl x slots)) := ⟨_, rfl⟩
  have stored : w.heap.setField h r.decl x = .ok changed := by
    rw [heap, replaced]
    exact Heap.setField_held (Heap.object_eq_ok.mp found) held x
  have there : changed.getField h r.decl = .ok x := by
    obtain ⟨slot, first, holds⟩ := Slot.find?_store_self (v := x) held
    rw [replaced, Heap.getField_of_object (Heap.object_replaced found) first, holds]
  rw [ofObjects] at read
  have run : putInstanceField s (m.amid f rest ((below.push a).push o) events (f.pc + 1)) =
      setField h r.decl x s (m.behindField f rest below w) := by
    rw [putInstanceField, bind_of_ok read]
    dsimp only
    rw [bind_of_ok popped, fits]
    refine (bind_of_ok (a := x) rfl).trans ?_
    rw [bind_of_ok popped', object]
  have put : setField h r.decl x s (m.behindField f rest below w) =
      (do modifyWorld fun w => { w with heap := changed, lapses := w.lapses.leak x } : Exec Unit) s
        (m.behindField f rest below w) := by
    rw [setField, bind_of_ok heap_run]
    show (ofExcept (w.heap.setField h r.decl x) >>= _) _ _ = _
    rw [stored]
    rfl
  exact ⟨_, run.trans (put.trans (modifyWorld_run _)), rfl, there⟩

variable (s) (rest) (events) in
/-- What a field of an object holds is pushed. -/
theorem getInstanceField_run {h : Handle} {a : Operand} (faces : m.FacesField f opcode r)
    (ofObjects : r.decl.flags.isStatic = false) (own : f.stackBase ≤ below.size)
    (object : a.value = .object h) (held : m.world.heap.getField h r.decl = .ok x) :
    ∃ m', getInstanceField s (m.amid f rest (below.push a) events (f.pc + 1)) = .ok () m' ∧
      m'.thread.operands = below.push ⟨x, f.pc⟩ := by
  obtain ⟨w, recalls, read⟩ := readField_run s rest (below.push a) events faces
  have popped : pop s (m.behindField f rest (below.push a) w) =
      .ok a.value (m.behindField f rest below w) := pop_run a own
  have there : w.heap.getField h r.decl = .ok x := by
    obtain ⟨_, _, _, rfl⟩ := recalls
    exact held
  rw [ofObjects] at read
  refine ⟨m.behindField f rest (below.push ⟨x, f.pc⟩) w,
    (bind_of_ok read).trans ((bind_of_ok popped).trans ?_), rfl⟩
  rw [object]
  dsimp only
  rw [bind_of_ok heap_run]
  show (ofExcept (w.heap.getField h r.decl) >>= _) _ _ = _
  rw [there]
  rfl

end Fields

/-! ### Conversions and results -/

variable {s : Settings} {m : Machine} {f : Frame} {rest : List Frame}
  {below : Array Operand} {events : Array Event} {pc : Nat} {o : Operand} {v : Int32}

/-- A conversion pushes the reduced int. -/
theorem narrow_reduce (target : NarrowKind) (int : o.value.asInt = .ok v)
    (own : f.stackBase ≤ below.size) :
    narrow target s (m.amid f rest (below.push o) events pc) =
      .ok () (m.amid f rest (below.push ⟨.int (target.type.reduce v), f.pc⟩) events pc) := by
  rw [narrow, bind_of_ok (popInt_run own int)]
  cases target with
  | byte => rw [NarrowKind.type, IntType.reduce_byte]; rfl
  | char => rw [NarrowKind.type, IntType.reduce_char_mask]; rfl
  | short => rw [NarrowKind.type, IntType.reduce_short]; rfl

variable (s) (m) (rest) (events) (pc) in
/-- A result of a type is handed to the caller as the reduced int. -/
theorem returnValue_reduce {t : IntType} (int : o.value.asInt = .ok v)
    (result : f.method.type.result = t.type) (own : f.stackBase ≤ below.size) {n : Nat}
    {outer : List Nat} (counter : m.thread.depths = (n + 1) :: outer) :
    ∃ m' address, returnValue s (m.amid f rest (below.push o) events pc) =
        .ok (if n = 0 then .leave else .next) m' ∧
      m'.thread.operands = (below.take f.stackBase).push ⟨.int (t.reduce v), address⟩ := by
  obtain ⟨events', run⟩ := returnValue_run (s := s) rest events pc own
    (result ▸ t.coerceTo_reduce int) counter
  refine ⟨_, Machine.tag (Machine.without (m.amid f rest below events pc)
    [{ f with pc, instructionPc := f.pc }] (n :: outer) events'), run, ?_⟩
  show below.take (Frame.roof below.size [{ f with pc, instructionPc := f.pc }]) ++ #[_] = _
  rw [Frame.take_roof, Array.append_singleton]

end Exec

/-! ## Stores and loads -/

/-- The machine is in front of an instruction on the element of an array at an index, with more
operands above these two. -/
structure Machine.AtElement (m : Machine) (f : Frame) (rest : List Frame) (below : Array Operand)
    (opcode : UInt8) (h : Handle) (index : Int32) (os : List Operand) : Prop where
  /-- The operands. -/
  bears : ∃ a i, m.Bears f rest below (a :: i :: os) ∧ a.value = .array h ∧
    i.value.asInt = .ok index
  /-- The opcode. -/
  shown : f.Shows f.pc [opcode]

/-- The machine is in front of an instruction on a static field of a class in use. -/
structure Machine.AtStatic (m : Machine) (f : Frame) (rest : List Frame) (below : Array Operand)
    (opcode : UInt8) (r : FieldRef) (os : List Operand) : Prop where
  /-- The operands. -/
  bears : m.Bears f rest below os
  /-- The reference. -/
  faces : m.FacesField f opcode r
  /-- The class. -/
  serves : m.Serves r

/-- The machine is in front of an instruction on a field of an object, with more operands above the
object. -/
structure Machine.AtField (m : Machine) (f : Frame) (rest : List Frame) (below : Array Operand)
    (opcode : UInt8) (r : FieldRef) (h : Handle) (os : List Operand) : Prop where
  /-- The operands. -/
  bears : ∃ a, m.Bears f rest below (a :: os) ∧ a.value = .object h
  /-- The reference. -/
  faces : m.FacesField f opcode r
  /-- The field is one of objects. -/
  ofObjects : r.decl.flags.isStatic = false

/-- The next instruction replaces the operands above the given ones by an int. -/
def Machine.Computes (m : Machine) (f : Frame) (below : Array Operand) (n : Int32) : Prop :=
  ∀ host s, ∃ m', Exec.step host s m = .ok .next m' ∧
    m'.thread.operands = below.push ⟨.int n, f.pc⟩

namespace Exec

variable {m : Machine} {f : Frame} {rest : List Frame} {below : Array Operand} {h : Handle}
  {index : Int32} {r : FieldRef} {o : Operand} {v n : Int32} {t : IntType}

theorem store_element (int : o.value.asInt = .ok v)
    (ready : m.AtElement f rest below t.storeByte h index [o]) {e : ArrayEntry} {k : Nat}
    (found : m.world.heap.array h = .ok e) (described : e.descriptor = t.arrayDescriptor)
    (place : Heap.place? e.elements.size index = some k) (host : Host) (s : Settings) :
    ∃ m' x, step host s m = .ok .next m' ∧ m'.thread.operands = below ∧
      m'.world.heap.loadElement h index = .ok (some x) ∧
      elementOperand t.kind x = .ok (.int (t.reduce v)) := by
  obtain ⟨⟨a, i, bears, array, index'⟩, shown⟩ := ready
  obtain ⟨x, element, operand⟩ := t.primitiveElement_reduce int
  have primitive : t.kind ≠ .reference := by cases t <;> decide
  have plain : perform host (Opcode.ofByte t.storeByte) = do arrayStore t.kind; return .next := by
    cases t <;> rfl
  obtain ⟨m', run, operands, loaded⟩ := arrayStore_run s m rest (m.traced s f t.storeByte) (f.pc + 1)
    bears.own array index' found place primitive (described ▸ element)
  exact ⟨m', x, step_of_run plain bears shown run, operands, loaded, operand⟩

theorem load_element (ready : m.AtElement f rest below t.loadByte h index []) {x : Value}
    (loaded : m.world.heap.loadElement h index = .ok (some x))
    (operand : elementOperand t.kind x = .ok (.int n)) : m.Computes f below n := by
  intro host s
  obtain ⟨⟨a, i, bears, array, index'⟩, shown⟩ := ready
  have plain : perform host (Opcode.ofByte t.loadByte) = do arrayLoad t.kind; return .next := by
    cases t <;> rfl
  exact ⟨_, step_of_run plain bears shown
    (arrayLoad_run bears.own array index' loaded operand), rfl⟩

theorem put_static (int : o.value.asInt = .ok v) (ready : m.AtStatic f rest below 0xb3 r [o])
    (type : r.decl.type = t.type) {old : Value} (held : m.world.static? r = some old) (host : Host)
    (s : Settings) : ∃ m', step host s m = .ok .next m' ∧ m'.thread.operands = below ∧
      m'.world.static? r = some (.int (t.reduce v)) := by
  obtain ⟨bears, faces, serves⟩ := ready
  obtain ⟨index, ref, shown, -⟩ := faces.named
  obtain ⟨m', run, operands, stored⟩ :=
    putStaticField_run s rest (m.traced s f 0xb3) host faces serves bears.own
      (type ▸ t.coerceTo_reduce int) held
  exact ⟨m', step_of_run rfl bears shown.head run, operands, stored⟩

theorem get_static (ready : m.AtStatic f rest below 0xb2 r [])
    (held : m.world.static? r = some (.int n)) : m.Computes f below n := by
  intro host s
  obtain ⟨bears, faces, serves⟩ := ready
  obtain ⟨index, ref, shown, -⟩ := faces.named
  obtain ⟨m', run, operands⟩ := getStaticField_run s rest below (m.traced s f 0xb2) host faces serves
    held
  exact ⟨m', step_of_run rfl bears shown.head run, operands⟩

theorem put_field (int : o.value.asInt = .ok v) (ready : m.AtField f rest below 0xb5 r h [o])
    (type : r.decl.type = t.type) {cls : LoadedClass} {slots : List Slot}
    (found : m.world.heap.object h = .ok (cls, slots)) (held : slots.any (·.holds r.decl) = true)
    (host : Host) (s : Settings) :
    ∃ m', step host s m = .ok .next m' ∧ m'.thread.operands = below ∧
      m'.world.heap.getField h r.decl = .ok (.int (t.reduce v)) := by
  obtain ⟨⟨a, bears, object⟩, faces, ofObjects⟩ := ready
  obtain ⟨index, ref, shown, -⟩ := faces.named
  obtain ⟨m', run, operands, stored⟩ :=
    putInstanceField_run s rest (m.traced s f 0xb5) faces ofObjects bears.own object
      (type ▸ t.coerceTo_reduce int) found held
  exact ⟨m', step_of_run rfl bears shown.head run, operands, stored⟩

theorem get_field (ready : m.AtField f rest below 0xb4 r h [])
    (held : m.world.heap.getField h r.decl = .ok (.int n)) : m.Computes f below n := by
  intro host s
  obtain ⟨⟨a, bears, object⟩, faces, ofObjects⟩ := ready
  obtain ⟨index, ref, shown, -⟩ := faces.named
  obtain ⟨m', run, operands⟩ := getInstanceField_run s rest (m.traced s f 0xb4) faces ofObjects
    bears.own object held
  exact ⟨m', step_of_run rfl bears shown.head run, operands⟩

/-- Arrays, fields, results and conversions narrow alike.  An int is given to each of them for a
type, and it is the int reduced to the type that comes back.  From an array and from a field it comes
back to any thread at any later time, if nothing else was stored there.  What was reduced is not
changed again, so any of these done a second time, or after another one, changes nothing. -/
theorem ints_narrow_alike (t : IntType) (int : o.value.asInt = .ok v) :
    (∀ {m f rest below h index e k}, Machine.AtElement m f rest below t.storeByte h index [o] →
      m.world.heap.array h = .ok e → e.descriptor = t.arrayDescriptor →
      Heap.place? e.elements.size index = some k → ∀ host s, ∃ m',
        step host s m = .ok .next m' ∧ m'.thread.operands = below ∧
        ∀ {b g rest' below'}, Machine.AtElement b g rest' below' t.loadByte h index [] →
          b.world.heap.loadElement h index = m'.world.heap.loadElement h index →
          b.Computes g below' (t.reduce v)) ∧
    (∀ {m f rest below r old}, Machine.AtStatic m f rest below 0xb3 r [o] → r.decl.type = t.type →
      m.world.static? r = some old → ∀ host s, ∃ m',
        step host s m = .ok .next m' ∧ m'.thread.operands = below ∧
        ∀ {b g rest' below'}, Machine.AtStatic b g rest' below' 0xb2 r [] →
          b.world.static? r = m'.world.static? r → b.Computes g below' (t.reduce v)) ∧
    (∀ {m f rest below r h cls slots}, Machine.AtField m f rest below 0xb5 r h [o] →
      r.decl.type = t.type → m.world.heap.object h = .ok (cls, slots) →
      slots.any (·.holds r.decl) = true → ∀ host s, ∃ m',
        step host s m = .ok .next m' ∧ m'.thread.operands = below ∧
        ∀ {b g rest' below'}, Machine.AtField b g rest' below' 0xb4 r h [] →
          b.world.heap.getField h r.decl = m'.world.heap.getField h r.decl →
          b.Computes g below' (t.reduce v)) ∧
    (∀ {m : Machine} {f rest below n outer}, m.Bears f rest below [o] → f.Shows f.pc [0xac] →
      f.method.type.result = t.type → m.thread.depths = (n + 1) :: outer → ∀ host s,
      ∃ m' address, step host s m = .ok (if n = 0 then .leave else .next) m' ∧
        m'.thread.operands = (below.take f.stackBase).push ⟨.int (t.reduce v), address⟩) ∧
    (∀ target : NarrowKind, target.type = t → ∀ {m : Machine} {f rest below},
      m.Bears f rest below [o] → f.Shows f.pc [target.byteOf] → m.Computes f below (t.reduce v)) ∧
    t.reduce (t.reduce v) = t.reduce v := by
  refine ⟨?_, ?_, ?_, ?_, ?_, t.reduce_reduce v⟩
  · intro m f rest below h index e k ready found described place host s
    obtain ⟨m', x, run, operands, loaded, operand⟩ :=
      store_element int ready found described place host s
    exact ⟨m', run, operands, fun later same => load_element later (same.trans loaded) operand⟩
  · intro m f rest below r old ready type held host s
    obtain ⟨m', run, operands, stored⟩ := put_static int ready type held host s
    exact ⟨m', run, operands, fun later same => get_static later (same.trans stored)⟩
  · intro m f rest below r h cls slots ready type found held host s
    obtain ⟨m', run, operands, stored⟩ := put_field int ready type found held host s
    exact ⟨m', run, operands, fun later same => get_field later (same.trans stored)⟩
  · intro m f rest below n outer bears shown result counter host s
    obtain ⟨m', address, run, operands⟩ :=
      returnValue_reduce s m rest (m.traced s f 0xac) (f.pc + 1) int result bears.own counter
    refine ⟨m', address, ?_, operands⟩
    rw [step, bind_of_ok (fetch_traced bears.current shown), bears.top]
    exact run
  · rintro target rfl m f rest below bears shown host s
    have plain : perform host (Opcode.ofByte target.byteOf) = do narrow target; return .next := by
      cases target <;> rfl
    exact ⟨_, step_of_run plain bears shown (narrow_reduce target int bears.own), rfl⟩

end Exec

namespace Sample

/-- The static field of the gauge. -/
def levelField : FieldDecl := ⟨"level", "B", ⟨0x0008⟩, "Gauge", .byte⟩

/-- The field of the gauges themselves. -/
def spanField : FieldDecl := ⟨"span", "B", ⟨0⟩, "Gauge", .byte⟩

/-- A class whose objects measure bytes. -/
def gaugeClass : LoadedClass :=
  { cls with
    name := "Gauge"
    fields := [levelField, spanField]
    pool := #[.empty, .field ⟨"Gauge", "level", "B"⟩, .field ⟨"Gauge", "span", "B"⟩] }

/-- A reference to the static field. -/
def level : FieldRef := ⟨gaugeClass.ref, 0, levelField⟩

/-- A reference to the field of the gauges themselves. -/
def span : FieldRef := ⟨gaugeClass.ref, 1, spanField⟩

/-- A world with a gauge and an array of bytes. -/
def measuring : World where
  library := ⟨[gaugeClass]⟩
  classStates := #[{ init := .initialised, statics := #[.int 0, .int 0] }]
  heap :=
    { cells := #[some ⟨0, .object gaugeClass [⟨spanField, .int 0⟩]⟩,
        some ⟨0, .array ⟨"[B", .byte, #[.byte 0]⟩⟩]
      live := 2
      made := 2 }

/-- A method with a byte as its result, in front of an instruction. -/
def measurer (code : List UInt8) : Frame :=
  { frame code [] 0 with
    cls := gaugeClass
    method :=
      { method code [] with
        descriptor := "()B"
        type := ⟨[], .byte⟩
        typed := by decide } }

/-- A machine that runs it. -/
def measure (w : World) (code : List UInt8) (operands : Array Operand) : Machine :=
  ⟨w, { id := 0, frames := [measurer code], operands, depths := [1], deepest := 1 }⟩

/-- The world after an instruction. -/
def afterwards (code : List UInt8) (operands : Array Operand) : World :=
  ((Exec.step ⟨Engine.reentry [] 0, []⟩).after {} (measure measuring code operands)).world

/-- The world after an int was stored into the static field. -/
def levelled : World := afterwards [0xb3, 0, 1] #[⟨.int 300, 0⟩]

/-- The world after an int was stored into the field of the gauge. -/
def spanned : World := afterwards [0xb5, 0, 2] #[⟨.object ⟨0⟩, 0⟩, ⟨.int 300, 0⟩]

end Sample

namespace Exec

theorem ints_narrow_alike_byte :
    let host : Host := ⟨Engine.reentry [] 0, []⟩
    let int : Operand := ⟨.int 300, 0⟩
    let cell : Array Operand := #[⟨.array ⟨1⟩, 0⟩, ⟨.int 0, 0⟩]
    let gauge : Operand := ⟨.object ⟨0⟩, 0⟩
    (∃ m', step host {} (Sample.measure Sample.measuring [0x54] (cell.push int)) = .ok .next m' ∧
      (Sample.measure m'.world [0x33] cell).Computes (Sample.measurer [0x33]) #[] 44) ∧
    (∃ m', step host {} (Sample.measure Sample.measuring [0xb3, 0, 1] #[int]) = .ok .next m' ∧
      (Sample.measure m'.world [0xb2, 0, 1] #[]).Computes (Sample.measurer [0xb2, 0, 1]) #[] 44) ∧
    (∃ m', step host {} (Sample.measure Sample.measuring [0xb5, 0, 2] #[gauge, int]) =
        .ok .next m' ∧
      (Sample.measure m'.world [0xb4, 0, 2] #[gauge]).Computes
        (Sample.measurer [0xb4, 0, 2]) #[] 44) ∧
    (∃ m' address, step host {} (Sample.measure Sample.measuring [0xac] #[int]) = .ok .leave m' ∧
      m'.thread.operands = #[⟨.int 44, address⟩]) ∧
    (Sample.measure Sample.measuring [0x91] #[int]).Computes (Sample.measurer [0x91]) #[] 44 := by
  intro host int cell gauge
  obtain ⟨elements, statics, fields, results, conversions, -⟩ :=
    ints_narrow_alike (o := int) (v := 300) .byte rfl
  have reduced : IntType.byte.reduce 300 = 44 := by decide
  rw [reduced] at elements statics fields results conversions
  refine ⟨?_, ?_, ?_, ?_, ?_⟩
  · have ready : Machine.AtElement (Sample.measure Sample.measuring [0x54] (cell.push int))
        (Sample.measurer [0x54]) [] #[] 0x54 ⟨1⟩ 0 [int] :=
      ⟨⟨_, _, ⟨rfl, rfl, Nat.le_refl 0⟩, rfl, rfl⟩, ⟨[], rfl⟩⟩
    have again (w : World) : Machine.AtElement (Sample.measure w [0x33] cell)
        (Sample.measurer [0x33]) [] #[] 0x33 ⟨1⟩ 0 [] :=
      ⟨⟨_, _, ⟨rfl, rfl, Nat.le_refl 0⟩, rfl, rfl⟩, ⟨[], rfl⟩⟩
    obtain ⟨m', run, -, later⟩ :=
      elements ready (e := ⟨"[B", .byte, #[.byte 0]⟩) (k := 0) rfl rfl rfl host {}
    exact ⟨m', run, later (again m'.world) rfl⟩
  · have ready : Machine.AtStatic (Sample.measure Sample.measuring [0xb3, 0, 1] #[int])
        (Sample.measurer [0xb3, 0, 1]) [] #[] 0xb3 Sample.level [int] :=
      ⟨⟨rfl, rfl, Nat.le_refl 0⟩, ⟨1, _, ⟨[], rfl⟩, rfl, ⟨_, rfl⟩, rfl⟩, rfl, _, rfl, .inl rfl⟩
    have again : Machine.AtStatic (Sample.measure Sample.levelled [0xb2, 0, 1] #[])
        (Sample.measurer [0xb2, 0, 1]) [] #[] 0xb2 Sample.level [] := by
      have known : (Sample.levelled.library.find? "Gauge").any
          (fun c => Sample.levelled.initState c.id = .initialised) = true := by decide +kernel
      obtain ⟨c, looked, usable⟩ := (Option.any_eq_true _ _).mp known
      exact ⟨⟨rfl, rfl, Nat.le_refl 0⟩, ⟨1, _, ⟨[], rfl⟩, rfl, ⟨c, looked⟩, by decide +kernel⟩,
        rfl, c, looked, .inl (of_decide_eq_true usable)⟩
    obtain ⟨m', run, -, later⟩ := statics ready rfl rfl host {}
    obtain rfl := after_of_ok run
    exact ⟨_, run, later again rfl⟩
  · have ready : Machine.AtField (Sample.measure Sample.measuring [0xb5, 0, 2] #[gauge, int])
        (Sample.measurer [0xb5, 0, 2]) [] #[] 0xb5 Sample.span ⟨0⟩ [int] :=
      ⟨⟨_, ⟨rfl, rfl, Nat.le_refl 0⟩, rfl⟩, ⟨2, _, ⟨[], rfl⟩, rfl, ⟨_, rfl⟩, rfl⟩, rfl⟩
    have again : Machine.AtField (Sample.measure Sample.spanned [0xb4, 0, 2] #[gauge])
        (Sample.measurer [0xb4, 0, 2]) [] #[] 0xb4 Sample.span ⟨0⟩ [] := by
      have known : (Sample.spanned.library.find? "Gauge").isSome = true := by decide +kernel
      exact ⟨⟨_, ⟨rfl, rfl, Nat.le_refl 0⟩, rfl⟩, ⟨2, _, ⟨[], rfl⟩, rfl,
        Option.isSome_iff_exists.mp known, by decide +kernel⟩, rfl⟩
    have found : Sample.measuring.heap.object ⟨0⟩ =
        .ok (Sample.gaugeClass, [⟨Sample.spanField, .int 0⟩]) := rfl
    obtain ⟨m', run, -, later⟩ := fields ready rfl found rfl host {}
    obtain rfl := after_of_ok run
    exact ⟨_, run, later again rfl⟩
  · have bears : (Sample.measure Sample.measuring [0xac] #[int]).Bears
        (Sample.measurer [0xac]) [] #[] [int] := ⟨rfl, rfl, Nat.le_refl 0⟩
    exact results bears ⟨[], rfl⟩ rfl (n := 0) rfl host {}
  · have bears : (Sample.measure Sample.measuring [0x91] #[int]).Bears
        (Sample.measurer [0x91]) [] #[] [int] := ⟨rfl, rfl, Nat.le_refl 0⟩
    exact conversions .byte rfl bears ⟨[], rfl⟩

end Exec

end JavaMachine
