import JavaMachine.ElementKind
import JavaMachine.Library
import JavaMachine.Text.Units

/-!
# The heap

Objects and arrays live in cells of an arena and are named by handles.  A freed cell is used again
before the arena grows, the one freed last first.  Every entry gets a serial number that no other
entry ever gets; it names the entry's monitor.

The heap may have a capacity, the number of live entries at which allocations fail, and a limit
for the length of arrays.  A reserved allocation passes over the capacity.  Every operation on a
handle that names no live entry is a fault, and so is an operation on an object where an array is
needed, or the other way round.
-/

namespace JavaMachine

/-- A field of an object and what it holds. -/
structure Slot where
  /-- The field. -/
  field : FieldDecl
  /-- What it holds. -/
  value : Value

/-- An array. -/
structure ArrayEntry where
  /-- The descriptor of the array itself. -/
  descriptor : String
  /-- The kind of the elements. -/
  kind : ElementKind
  /-- The elements. -/
  elements : Array Value

/-- An object or an array. -/
inductive Entry where
  /-- An object of a class with the values of its fields. -/
  | object (cls : LoadedClass) (slots : List Slot)
  | array (a : ArrayEntry)

/-- An entry in its cell. -/
structure Cell where
  /-- The number of entries made before this one. -/
  serial : Nat
  /-- The entry. -/
  entry : Entry

/-- The arena of objects and arrays. -/
structure Heap where
  /-- The cells, empty where an entry was freed. -/
  cells : Array (Option Cell) := #[]
  /-- The empty cells, the one freed last first. -/
  free : List Nat := []
  /-- The number of entries in cells. -/
  live : Nat := 0
  /-- The number of entries ever made. -/
  made : Nat := 0
  /-- The number of live entries at which allocations fail. -/
  capacity : Option Nat := none
  /-- The length above which arrays are refused. -/
  maxArrayLength : Option Nat := none

namespace Slot

/-- Whether a slot holds a field: fields are told apart by name and declaring class. -/
def holds (s : Slot) (f : FieldDecl) : Bool :=
  s.field.name == f.name && s.field.className == f.className

/-- Stores a value into the first slot of a field. -/
def store (f : FieldDecl) (v : Value) : List Slot → List Slot
  | [] => []
  | s :: rest => if s.holds f then { s with value := v } :: rest else s :: store f v rest

end Slot

namespace Heap

/-! ## Allocation -/

/-- Puts an entry into a cell. -/
def insert (h : Heap) (entry : Entry) (reserved : Bool) : Except Fault (Handle × Heap) :=
  let full := h.capacity.filter fun capacity => !reserved && capacity ≤ h.live
  match full with
  | some capacity => .error (.outOfMemory capacity)
  | none =>
      let cell : Cell := ⟨h.made, entry⟩
      match h.free with
      | index :: free =>
          .ok (⟨index⟩, { h with cells := h.cells.setIfInBounds index (some cell), free,
                                 live := h.live + 1, made := h.made + 1 })
      | [] =>
          .ok (⟨h.cells.size⟩, { h with cells := h.cells.push (some cell),
                                        live := h.live + 1, made := h.made + 1 })

/-- Makes an object of a class whose fields hold their defaults. -/
def allocateObject (h : Heap) (cls : LoadedClass) (fields : List FieldDecl)
    (reserved : Bool) : Except Fault (Handle × Heap) :=
  h.insert (.object cls (fields.map fun f => ⟨f, Value.defaultOf f.type⟩)) reserved

/-- The greatest number of elements that an address space of 63 bits can hold at sixteen bytes
each. -/
def addressableElements : Nat := 0x7fffffffffffffff / 16

/-- Whether a length is above the limit for arrays. -/
def isTooLong (h : Heap) (length : Nat) : Bool := h.maxArrayLength.any (· < length)

/-- Whether an array of a length may be made. -/
def checkLength (h : Heap) (length : Nat) : Except Fault Unit :=
  if h.isTooLong length || addressableElements < length then
    .error (.arrayAllocation length)
  else .ok ()

/-- Makes an array of given elements. -/
def allocateArrayOf (h : Heap) (kind : ElementKind) (descriptor : String)
    (elements : Array Value) : Except Fault (Handle × Heap) :=
  h.insert (.array ⟨descriptor, kind, elements⟩) false

/-- Makes an array of a length, filled with the default of its kind. -/
def allocateArray (h : Heap) (kind : ElementKind) (descriptor : String) (length : Nat) :
    Except Fault (Handle × Heap) := do
  h.checkLength length
  h.allocateArrayOf kind descriptor (Array.replicate length kind.defaultValue)

/-! ## Look-up -/

/-- The cell of a handle. -/
def cell? (h : Heap) (r : Handle) : Option Cell := (h.cells[r.index]?).join

/-- The cell of a handle, or the fault that the handle dangles. -/
def cell (h : Heap) (r : Handle) : Except Fault Cell :=
  match h.cell? r with
  | some c => .ok c
  | none => .error (.invalidHandle r.index)

/-- The entry of a handle. -/
def entry (h : Heap) (r : Handle) : Except Fault Entry := (h.cell r).map Cell.entry

/-- The class and the fields of the object of a handle. -/
def object (h : Heap) (r : Handle) : Except Fault (LoadedClass × List Slot) := do
  match ← h.entry r with
  | .object cls slots => .ok (cls, slots)
  | .array _ => .error (.typeMismatch "object" "array")

/-- The array of a handle. -/
def array (h : Heap) (r : Handle) : Except Fault ArrayEntry := do
  match ← h.entry r with
  | .array a => .ok a
  | .object .. => .error (.typeMismatch "array" "object")

/-- Replaces the entry of a handle. -/
def replace (h : Heap) (r : Handle) (e : Entry) : Heap :=
  { h with cells := h.cells.modify r.index (·.map ({ · with entry := e })) }

/-- Frees the entry of a handle. -/
def release (h : Heap) (r : Handle) : Except Fault Heap := do
  let _ ← h.cell r
  return { h with cells := h.cells.setIfInBounds r.index none, free := r.index :: h.free,
                  live := h.live - 1 }

/-- Whether a handle names an array. -/
def isArray (h : Heap) (r : Handle) : Except Fault Bool := do
  match ← h.entry r with
  | .array _ => return true
  | .object .. => return false

/-- The class of the object of a handle. -/
def classOf (h : Heap) (r : Handle) : Except Fault LoadedClass := (h.object r).map (·.1)

/-- The serial number of the entry of a handle. -/
def serialOf (h : Heap) (r : Handle) : Except Fault Nat := (h.cell r).map Cell.serial

/-! ## Fields -/

/-- What a field of an object holds. -/
def getField (h : Heap) (r : Handle) (f : FieldDecl) : Except Fault Value := do
  let (cls, slots) ← h.object r
  match slots.find? (·.holds f) with
  | some s => return s.value
  | none => .error (.unresolvedField cls.name f.name)

/-- Stores a value into a field of an object. -/
def setField (h : Heap) (r : Handle) (f : FieldDecl) (v : Value) : Except Fault Heap := do
  let (cls, slots) ← h.object r
  if slots.any (·.holds f) then return h.replace r (.object cls (Slot.store f v slots))
  else .error (.unresolvedField cls.name f.name)

/-- What the nearest field of a name holds, if the object has one. -/
def fieldByName (h : Heap) (r : Handle) (name : String) : Except Fault (Option Value) := do
  let (_, slots) ← h.object r
  return (slots.find? (·.field.name == name)).map Slot.value

/-! ## Elements -/

/-- The length of an array. -/
def arrayLength (h : Heap) (r : Handle) : Except Fault Nat := (h.array r).map (·.elements.size)

/-- The descriptor of an array. -/
def arrayDescriptor (h : Heap) (r : Handle) : Except Fault String :=
  (h.array r).map ArrayEntry.descriptor

/-- The place that an index names in an array, none when it is out of bounds. -/
def place? (length : Nat) (index : Int32) : Option Nat :=
  if 0 ≤ index.toInt ∧ index.toInt < length then some index.toInt.toNat else none

/-- The element at an index, none when it is out of bounds. -/
def loadElement (h : Heap) (r : Handle) (index : Int32) : Except Fault (Option Value) := do
  let a ← h.array r
  return (place? a.elements.size index).bind (a.elements[·]?)

/-- Stores an element at an index.  The answer tells whether the index is in bounds; nothing
changes when it is not. -/
def storeElement (h : Heap) (r : Handle) (index : Int32) (v : Value) :
    Except Fault (Bool × Heap) := do
  let a ← h.array r
  match place? a.elements.size index with
  | none => return (false, h)
  | some i =>
      return (true, h.replace r (.array { a with elements := a.elements.setIfInBounds i v }))

/-- Makes an array with the same elements. -/
def cloneArray (h : Heap) (r : Handle) : Except Fault (Handle × Heap) := do
  let a ← h.array r
  h.allocateArrayOf a.kind a.descriptor a.elements

/-! ## Strings -/

/-- The unit that an element of a character array stands for. -/
def unitOf (v : Value) : Except Fault UInt16 := do return (← v.asInt).toUInt32.toUInt16

/-- The text of an object with a character array in its field `value`, none for any other
object. -/
def readString (h : Heap) (r : Handle) : Except Fault (Option String) := do
  match ← h.fieldByName r "value" with
  | some (.array chars) =>
      let a ← h.array chars
      let units ← a.elements.toList.mapM unitOf
      return some (Text.ofUnits units)
  | _ => return none

end Heap

end JavaMachine
