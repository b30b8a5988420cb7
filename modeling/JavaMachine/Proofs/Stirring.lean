import JavaMachine.CoreNatives
import JavaMachine.Proofs.Arena
import Mathlib.Logic.Relation
import Mathlib.Order.Defs.Unbundled

/-!
# What a machine does to its memory

The memory of a world are its heap, its static fields and the memo of resolved fields.
`World.Stir` lists what a computation that calls no method does to it: it resolves a field, makes an
object or an array, stores into a field of an object or into an element, or copies elements.  Each
item says under which conditions it is done, so that an invariant of the memory is proved by one
case for each.  Everything else that such a computation does leaves the memory alone.

For an invariant of the arrays `World.Origin` says where an array comes from that is there after a
change: it was there, or it is new or changed in one of five ways.

Two changes of the memory are not listed, because the methods that bring a class into use may run
between the check of their conditions and themselves: a store into a static field, and the object
that an instruction makes.

A chain of such changes starts in a heap with its books in order.  In any other one an allocation
could overwrite what was made before it.  `World.Stirred` also says what becomes of the table of
literals meanwhile: strings may be noted down in it that are new.
-/

namespace JavaMachine

open Relation (ReflTransGen)

theorem Library.mem_of_find? {lib : Library} {name : String} {c : LoadedClass}
    (h : lib.find? name = some c) : c ∈ lib.classes := List.mem_of_find?_eq_some h

theorem Library.name_of_find? {lib : Library} {name : String} {c : LoadedClass}
    (h : lib.find? name = some c) : c.name = name :=
  eq_of_beq (List.find?_some (p := fun d : LoadedClass => d.name == name) h)

/-- An exception that instructions and natives raise. -/
class inductive Throwable.Raised : String → Prop
  | abstractMethod : Raised abstractMethodError
  | arithmetic : Raised arithmeticException
  | arrayIndexOutOfBounds : Raised arrayIndexOutOfBoundsException
  | arrayStore : Raised arrayStoreException
  | classCast : Raised classCastException
  | illegalMonitorState : Raised illegalMonitorStateException
  | incompatibleClassChange : Raised incompatibleClassChangeError
  | instantiation : Raised instantiationError
  | negativeArraySize : Raised negativeArraySizeException
  | noClassDefFound : Raised noClassDefFoundError
  | noSuchField : Raised noSuchFieldError
  | noSuchMethod : Raised noSuchMethodError
  | nullPointer : Raised nullPointerException
  | outOfMemory : Raised outOfMemoryError
  | stackOverflow : Raised stackOverflowError
  | unsatisfiedLink : Raised unsatisfiedLinkError

open Throwable.Raised in
attribute [instance] abstractMethod arithmetic arrayIndexOutOfBounds arrayStore classCast
  illegalMonitorState incompatibleClassChange instantiation negativeArraySize noClassDefFound
  noSuchField noSuchMethod nullPointer outOfMemory stackOverflow unsatisfiedLink

/-- The kind of the elements that the descriptor of an array says. -/
def ElementKind.ofArray (descriptor : String) : ElementKind :=
  ofDescriptor (String.ofList descriptor.toList.tail)

/-- The name of the type of a reference in a heap. -/
def Heap.typeName (h : Heap) : Value → Except Fault String
  | .object r => (h.classOf r).map (·.name)
  | .array r => h.arrayDescriptor r
  | .classRef _ => .ok classClassName
  | v => .error (v.mismatch "reference")

/-- Two entries are of one class, or arrays of one type. -/
def Entry.Alike : Entry → Entry → Prop
  | .object cls _, .object cls' _ => cls' = cls
  | .array a, .array b => b.descriptor = a.descriptor ∧ b.kind = a.kind
  | _, _ => False

theorem Entry.Alike.refl (e : Entry) : e.Alike e := by
  cases e with
  | object => rfl
  | array => exact ⟨rfl, rfl⟩

theorem Entry.Alike.trans {e e' e'' : Entry} (first : e.Alike e') (second : e'.Alike e'') :
    e.Alike e'' := by
  cases e <;> cases e' <;> cases e''
  case object.object.object => exact Eq.trans second first
  case array.array.array => exact ⟨second.1.trans first.1, second.2.trans first.2⟩
  all_goals first | exact first.elim | exact second.elim

namespace Heap

variable {h h' : Heap} {e : Entry} {r r' : Handle} {a : ArrayEntry} {descriptor : String}

/-- After an allocation an array is an old one or the new one. -/
theorem Grown.array (grown : Grown h e r h') (found : h'.array r' = .ok a) :
    h.array r' = .ok a ∨ e = .array a :=
  (grown.entry_cases (array_eq_ok.mp found)).imp array_eq_ok.mpr Eq.symm

/-- A new object takes the place of no array. -/
theorem Grown.old_array {cls : LoadedClass} {slots : List Slot}
    (grown : Grown h (.object cls slots) r h') (found : h'.array r' = .ok a) :
    h.array r' = .ok a := (grown.array found).resolve_right nofun

/-- After an entry was replaced an array is an old one or the new one. -/
theorem array_replace (found : (h.replace r e).array r' = .ok a) :
    h.array r' = .ok a ∨ e = .array a :=
  (entry_replace_cases (array_eq_ok.mp found)).imp array_eq_ok.mpr Eq.symm

/-- The array of a handle has a descriptor. -/
def ArrayAt (h : Heap) (descriptor : String) (r : Handle) : Prop :=
  ∃ a, h.array r = .ok a ∧ a.descriptor = descriptor

/-- Every entry of the first heap is in the second one too, with its serial number and its type. -/
def Retains (h h' : Heap) : Prop :=
  ∀ r c, h.cell? r = some c → ∃ e, h'.cell? r = some { c with entry := e } ∧ c.entry.Alike e

theorem Retains.refl (h : Heap) : h.Retains h := fun _ c found => ⟨c.entry, found, .refl _⟩

theorem Retains.trans {h'' : Heap} (first : h.Retains h') (second : h'.Retains h'') :
    h.Retains h'' := by
  intro r c found
  obtain ⟨e, found, alike⟩ := first r c found
  obtain ⟨e', found, alike'⟩ := second r _ found
  exact ⟨e', found, alike.trans alike'⟩

/-- Where there is nothing there was nothing. -/
theorem Retains.vacant (retains : h.Retains h') (vacant : h'.cell? r = none) :
    h.cell? r = none := by
  refine Option.eq_none_iff_forall_ne_some.mpr fun c found => ?_
  obtain ⟨e, found, -⟩ := retains r c found
  exact nomatch vacant.symm.trans found

theorem Grown.retains (grown : Grown h e r h') : h.Retains h' :=
  fun _ c found => ⟨c.entry, grown.kept found, .refl _⟩

theorem Retains.replace {old new : Entry} (read : h.entry r = .ok old) (alike : old.Alike new) :
    h.Retains (h.replace r new) := by
  intro r' c found
  rw [cell?_replace]
  by_cases here : r' = r
  · subst here
    obtain ⟨serial, held⟩ := entry_eq_ok.mp read
    cases held.symm.trans found
    exact ⟨new, by simp [held], alike⟩
  · exact ⟨c.entry, by simp [here, found], .refl _⟩

/-- An array stays an array of its descriptor. -/
theorem Retains.arrayAt (retains : h.Retains h') (held : h.ArrayAt descriptor r) :
    h'.ArrayAt descriptor r := by
  obtain ⟨a, found, rfl⟩ := held
  obtain ⟨serial, cell⟩ := entry_eq_ok.mp (array_eq_ok.mp found)
  obtain ⟨e, cell, alike⟩ := retains _ _ cell
  cases e with
  | object => cases alike
  | array b => exact ⟨b, array_eq_ok.mpr (entry_eq_ok.mpr ⟨serial, cell⟩), alike.1⟩

/-- A reference keeps its type. -/
theorem Retains.typeName (retains : h.Retains h') {v : Value} {name : String}
    (named : h.typeName v = .ok name) : h'.typeName v = .ok name := by
  cases v with
  | object r =>
      cases found : h.object r with
      | error f => simp [Heap.typeName, classOf, found, Except.map] at named
      | ok o =>
          obtain ⟨cls, slots⟩ := o
          obtain ⟨serial, cell⟩ := entry_eq_ok.mp (object_eq_ok.mp found)
          obtain ⟨e, cell, alike⟩ := retains _ _ cell
          cases e with
          | array => cases alike
          | object cls' slots' =>
              cases alike
              have held := object_eq_ok.mpr (entry_eq_ok.mpr ⟨serial, cell⟩)
              simpa [Heap.typeName, classOf, found, held, Except.map] using named
  | array r =>
      cases found : h.array r with
      | error f => simp [Heap.typeName, arrayDescriptor, found, Except.map] at named
      | ok a =>
          obtain ⟨b, held, same⟩ := retains.arrayAt ⟨a, found, rfl⟩
          simpa [Heap.typeName, arrayDescriptor, found, held, same, Except.map] using named
  | classRef c => exact named
  | _ => cases named

/-- An object whose type is named is there. -/
theorem cell?_ne_none_of_typeName {name : String} (named : h.typeName (.object r) = .ok name) :
    h.cell? r ≠ none := by
  intro vacant
  simp [Heap.typeName, classOf, object, entry, cell, vacant, Except.map, bind, Except.bind] at named

/-- A type is only named of a reference. -/
theorem isReference_of_typeName {v : Value} {name : String}
    (named : h.typeName v = .ok name) : v.isReference = true := by
  cases v with
  | object | array | classRef => rfl
  | _ => cases named

end Heap

namespace World

/-- A value may stand in an array of a descriptor: it is null, or its type fits. -/
def Fits (w : World) (descriptor : String) (v : Value) : Prop :=
  v.isNull = true ∨ ∃ name, w.heap.typeName v = .ok name ∧
    w.library.isAssignable name (Exec.componentType descriptor) = true

theorem Fits.isReference {w : World} {descriptor : String} {v : Value}
    (fits : w.Fits descriptor v) : v.isReference = true := by
  rcases fits with null | ⟨name, named, -⟩
  · cases v with
    | null => rfl
    | _ => cases null
  · exact Heap.isReference_of_typeName named

/-- A value is stored into a field of an object: an operand that was coerced to the type of the
field, or what the machine itself puts into the strings and exceptions that it makes. -/
inductive Writes (w : World) : FieldDecl → Value → Prop
  | coerced {key : String × String} {f : FieldRef} {operand v : Value}
      (known : w.fieldMemo.lookup key = some f) (ofObjects : f.decl.flags.isStatic = false)
      (fits : operand.coerceTo f.decl.type = .ok v) : Writes w f.decl v
  | characters {f : FieldRef} (chars : Handle)
      (known : w.fieldMemo.lookup (stringClassName, "value") = some f) :
      Writes w f.decl (.array chars)
  | message {className : String} {f : FieldRef} (text : Handle)
      (own : Throwable.Raised className)
      (known : w.fieldMemo.lookup (className, "detailMessage") = some f) :
      Writes w f.decl (.object text)

/-- One change of the memory. -/
inductive Stir (w : World) : World → Prop
  /-- The memory is the same. -/
  | beside {w' : World} (library : w'.library = w.library) (heap : w'.heap = w.heap)
      (statics : ∀ id : Nat, (w'.classStates[id]?).map ClassState.statics =
        (w.classStates[id]?).map ClassState.statics)
      (memo : w'.fieldMemo = w.fieldMemo) (crossings : w'.crossings = w.crossings)
      (lapses : w'.lapses = w.lapses) : Stir w w'
  /-- A field of the library is remembered, under a reference that was not met before. -/
  | remembered {key : String × String} {f : FieldRef} (new : w.fieldMemo.lookup key = none)
      (found : w.library.findField key.1 key.2 = some f) :
      Stir w { w with fieldMemo := (key, f) :: w.fieldMemo }
  /-- An object is made of a class of the library. -/
  | object {cls : LoadedClass} {reserved : Bool} {r : Handle} {heap : Heap}
      (found : w.library.find? cls.name = some cls)
      (made : w.heap.allocateObject cls (w.library.instanceFields cls) reserved = .ok (r, heap)) :
      Stir w { w with heap }
  /-- An array is made of the defaults of the kind that its descriptor says. -/
  | array {kind : ElementKind} {descriptor : String} {length : Nat} {r : Handle} {heap : Heap}
      (agrees : kind = ElementKind.ofArray descriptor)
      (made : w.heap.allocateArray kind descriptor length = .ok (r, heap)) : Stir w { w with heap }
  /-- An array is made of the characters of a text.  It may be too long, which is counted. -/
  | characters {elements : Array Value} {r : Handle} {heap : Heap}
      (units : ∀ v ∈ elements, ∃ u, v = .char u)
      (made : w.heap.allocateArrayOf .char "[C" elements = .ok (r, heap)) :
      Stir w { w with heap, lapses := w.lapses.stretch (heap.isTooLong elements.size) }
  /-- An array is made of arrays. -/
  | nested {descriptor : List Char} {inner : Array Handle} {r : Handle} {heap : Heap}
      (dimension : descriptor.head? = some '[')
      (arrays : ∀ r' ∈ inner, w.heap.ArrayAt (String.ofList descriptor) r')
      (short : w.heap.isTooLong inner.size = false)
      (made : w.heap.allocateArrayOf .reference (String.ofList ('[' :: descriptor))
        (inner.map .array) = .ok (r, heap)) : Stir w { w with heap }
  /-- An array is copied. -/
  | cloned {source r : Handle} {heap : Heap} (made : w.heap.cloneArray source = .ok (r, heap)) :
      Stir w { w with heap }
  /-- A field of an object is stored into. -/
  | field {r : Handle} {f : FieldDecl} {v : Value} {heap : Heap} (fits : w.Writes f v)
      (stored : w.heap.setField r f v = .ok heap) :
      Stir w { w with heap, lapses := w.lapses.leak v }
  /-- An operand is stored into an element of an array, as the instruction for elements of a kind
  does it.  A reference fits. -/
  | element {kind : ElementKind} {r : Handle} {index : Int32} {operand v : Value} {a : ArrayEntry}
      {inside : Bool} {heap : Heap} (found : w.heap.array r = .ok a)
      (converted : Exec.primitiveElement kind a.descriptor operand = .ok v)
      (fits : kind = .reference → w.Fits a.descriptor v)
      (stored : w.heap.storeElement r index v = .ok (inside, heap)) :
      Stir w
        { w with
          heap
          crossings := w.crossings + Exec.crossing kind a.kind
          lapses := w.lapses.mix (Exec.mixing kind a.kind) }
  /-- Elements of one array are written over those of another of its kind.  References fit, or all
  that the one array may hold the other may hold too. -/
  | copied {source dest : Handle} {a b : ArrayEntry} {elements : Array Value}
      (read : w.heap.array source = .ok a) (written : w.heap.array dest = .ok b)
      (kind : a.kind = b.kind) (size : elements.size = b.elements.size)
      (fits : ∀ v ∈ elements, v ∈ b.elements ∨ v ∈ a.elements ∧
        (a.kind = .reference → w.library.isAssignable a.descriptor b.descriptor = true ∨
          w.Fits b.descriptor v)) :
      Stir w { w with heap := w.heap.replace dest (.array { b with elements }) }

theorem Stir.library_eq {w w' : World} (h : w.Stir w') : w'.library = w.library := by
  cases h with
  | beside library => exact library
  | _ => rfl

/-- A change of the memory keeps the books of the heap in order. -/
theorem Stir.arena {w w' : World} (h : w.Stir w') (arena : w.heap.Arena) : w'.heap.Arena := by
  cases h with
  | beside _ heap => exact heap ▸ arena
  | remembered => exact arena
  | object _ made => exact arena.insert made
  | array _ made => exact arena.insert (Heap.allocateArray_ok made)
  | characters _ made => exact arena.insert made
  | nested _ _ _ made => exact arena.insert made
  | cloned made =>
      obtain ⟨a, -, made⟩ := Heap.cloneArray_ok made
      exact arena.insert made
  | field _ stored =>
      obtain ⟨cls, slots, -, -, rfl⟩ := Heap.setField_ok stored
      exact arena.replace
  | element _ _ _ stored =>
      obtain ⟨a, -, ⟨-, rfl⟩ | ⟨i, -, rfl⟩⟩ := Heap.storeElement_ok stored
      · exact arena
      · exact arena.replace
  | copied => exact arena.replace

/-- No change of the memory moves the limits of the heap. -/
theorem Stir.limits {w w' : World} (h : w.Stir w') : w'.heap.capacity = w.heap.capacity ∧
    w'.heap.maxArrayLength = w.heap.maxArrayLength := by
  cases h with
  | beside _ heap => exact heap ▸ ⟨rfl, rfl⟩
  | remembered => exact ⟨rfl, rfl⟩
  | object _ made => exact Heap.insert_limits made
  | array _ made => exact Heap.insert_limits (Heap.allocateArray_ok made)
  | characters _ made => exact Heap.insert_limits made
  | nested _ _ _ made => exact Heap.insert_limits made
  | cloned made =>
      obtain ⟨a, -, made⟩ := Heap.cloneArray_ok made
      exact Heap.insert_limits made
  | field _ stored =>
      obtain ⟨cls, slots, -, -, rfl⟩ := Heap.setField_ok stored
      exact ⟨rfl, rfl⟩
  | element _ _ _ stored =>
      obtain ⟨a, -, ⟨-, rfl⟩ | ⟨i, -, rfl⟩⟩ := Heap.storeElement_ok stored
      · exact ⟨rfl, rfl⟩
      · exact ⟨rfl, rfl⟩
  | copied => exact ⟨rfl, rfl⟩

/-- Where an array comes from that is there after a change of the memory. -/
inductive Origin (w w' : World) : ArrayEntry → Prop
  /-- It was there, or it is a copy of one that was. -/
  | old {r : Handle} {a : ArrayEntry} (found : w.heap.array r = .ok a) : Origin w w' a
  /-- It was made of the defaults of the kind that its descriptor says. -/
  | filled {descriptor : String} {length : Nat} (short : w.heap.isTooLong length = false) :
      Origin w w' ⟨descriptor, .ofArray descriptor,
        Array.replicate length (ElementKind.ofArray descriptor).defaultValue⟩
  /-- It was made of the characters of a text. -/
  | characters {elements : Array Value} (units : ∀ v ∈ elements, ∃ u, v = .char u)
      (counted : w'.lapses = w.lapses.stretch (w.heap.isTooLong elements.size)) :
      Origin w w' ⟨"[C", .char, elements⟩
  /-- It was made of arrays. -/
  | nested {descriptor : List Char} {inner : Array Handle} (dimension : descriptor.head? = some '[')
      (arrays : ∀ r ∈ inner, w.heap.ArrayAt (String.ofList descriptor) r)
      (short : w.heap.isTooLong inner.size = false) :
      Origin w w' ⟨String.ofList ('[' :: descriptor), .reference, inner.map .array⟩
  /-- An operand was stored into it. -/
  | stored {kind : ElementKind} {r : Handle} {i : Nat} {operand v : Value} {a : ArrayEntry}
      (found : w.heap.array r = .ok a)
      (converted : Exec.primitiveElement kind a.descriptor operand = .ok v)
      (fits : kind = .reference → w.Fits a.descriptor v)
      (crossed : w'.crossings = w.crossings + Exec.crossing kind a.kind)
      (mixed : w'.lapses = w.lapses.mix (Exec.mixing kind a.kind)) :
      Origin w w' { a with elements := a.elements.setIfInBounds i v }
  /-- Elements of another one were written over its own. -/
  | copied {source dest : Handle} {a b : ArrayEntry} {elements : Array Value}
      (read : w.heap.array source = .ok a) (written : w.heap.array dest = .ok b)
      (kind : a.kind = b.kind) (size : elements.size = b.elements.size)
      (fits : ∀ v ∈ elements, v ∈ b.elements ∨ v ∈ a.elements ∧
        (a.kind = .reference → w.library.isAssignable a.descriptor b.descriptor = true ∨
          w.Fits b.descriptor v)) :
      Origin w w' { b with elements }

/-- Every array has an origin. -/
theorem Stir.origin {w w' : World} (h : w.Stir w') (arena : w.heap.Arena) {r : Handle}
    {a : ArrayEntry} (found : w'.heap.array r = .ok a) : w.Origin w' a := by
  cases h with
  | beside _ heap => exact .old (heap ▸ found)
  | remembered => exact .old found
  | object _ made => exact .old ((arena.grown made).old_array found)
  | array agrees made =>
      obtain old | new := (arena.grown (Heap.allocateArray_ok made)).array found
      · exact .old old
      · cases new
        cases agrees
        exact .filled (Heap.allocateArray_short made)
  | characters units made =>
      obtain old | new := (arena.grown made).array found
      · exact .old old
      · cases new
        refine .characters units ?_
        rw [Heap.isTooLong, (Heap.insert_limits made).2]
        rfl
  | nested dimension arrays short made =>
      obtain old | new := (arena.grown made).array found
      · exact .old old
      · cases new
        exact .nested dimension arrays short
  | cloned made =>
      obtain ⟨b, source, made⟩ := Heap.cloneArray_ok made
      obtain old | new := (arena.grown made).array found
      · exact .old old
      · cases new
        exact .old source
  | field _ stored =>
      obtain ⟨cls, slots, -, -, rfl⟩ := Heap.setField_ok stored
      obtain old | new := Heap.array_replace found
      · exact .old old
      · cases new
  | element read converted fits stored =>
      obtain ⟨b, read', ⟨-, rfl⟩ | ⟨i, -, rfl⟩⟩ := Heap.storeElement_ok stored
      · exact .old found
      · cases read'.symm.trans read
        obtain old | new := Heap.array_replace found
        · exact .old old
        · cases new
          exact .stored read converted fits rfl rfl
  | copied read written kind size fits =>
      obtain old | new := Heap.array_replace found
      · exact .old old
      · cases new
        exact .copied read written kind size fits

/-- Every entry stays what it is. -/
theorem Stir.retains {w w' : World} (h : w.Stir w') (arena : w.heap.Arena) :
    w.heap.Retains w'.heap := by
  cases h with
  | beside _ heap => exact heap ▸ .refl _
  | remembered => exact .refl _
  | object _ made => exact (arena.grown made).retains
  | array _ made => exact (arena.grown (Heap.allocateArray_ok made)).retains
  | characters _ made => exact (arena.grown made).retains
  | nested _ _ _ made => exact (arena.grown made).retains
  | cloned made =>
      obtain ⟨a, -, made⟩ := Heap.cloneArray_ok made
      exact (arena.grown made).retains
  | field _ stored =>
      obtain ⟨cls, slots, read, -, rfl⟩ := Heap.setField_ok stored
      exact .replace read rfl
  | element _ _ _ stored =>
      obtain ⟨a, read, ⟨-, rfl⟩ | ⟨i, -, rfl⟩⟩ := Heap.storeElement_ok stored
      · exact .refl _
      · exact .replace (Heap.array_eq_ok.mp read) ⟨rfl, rfl⟩
  | copied _ written => exact .replace (Heap.array_eq_ok.mp written) ⟨rfl, rfl⟩

/-! ## Any number of changes -/

/-- Between two worlds nothing was freed.  The literals that were known are the strings that they
were, and those that are new are strings of their own that were not there before. -/
structure Hoarded (w w' : World) : Prop where
  /-- The books of the heap are in order. -/
  arena : w'.heap.Arena
  /-- Every entry stays what it is. -/
  retains : w.heap.Retains w'.heap
  /-- A literal that was known is the same string. -/
  known : ∀ {text r}, w.interned.lookup text = some r → w'.interned.lookup text = some r
  /-- The string of a new one was not there. -/
  fresh : ∀ {text r}, w'.interned.lookup text = some r → w.interned.lookup text = some r ∨
    w.heap.cell? r = none ∧ w'.heap.typeName (.object r) = .ok stringClassName
  /-- No two new ones are one string. -/
  apart : ∀ {text text' r}, w.interned.lookup text = none → w.interned.lookup text' = none →
    w'.interned.lookup text = some r → w'.interned.lookup text' = some r → text = text'

namespace Hoarded

variable {a b c w w' : World}

/-- No literal was noted down. -/
theorem of_same (arena : w'.heap.Arena) (retains : w.heap.Retains w'.heap)
    (same : w'.interned = w.interned) : w.Hoarded w' where
  arena := arena
  retains := retains
  known found := same ▸ found
  fresh found := .inl (same ▸ found)
  apart new _ found _ := by
    rw [same, new] at found
    cases found

theorem trans (first : a.Hoarded b) (second : b.Hoarded c) : a.Hoarded c where
  arena := second.arena
  retains := first.retains.trans second.retains
  known := second.known ∘ first.known
  fresh found := by
    obtain found | ⟨vacant, named⟩ := second.fresh found
    · exact (first.fresh found).imp_right fun ⟨vacant, named⟩ =>
        ⟨vacant, second.retains.typeName named⟩
    · exact .inr ⟨first.retains.vacant vacant, named⟩
  apart {text text' r} new new' found found' := by
    -- what is new in between is there, what is new after that was not
    have one {text text' : String} {r' : Handle} (new : a.interned.lookup text = none)
        (mid : b.interned.lookup text = some r') (mid' : b.interned.lookup text' = none)
        (found : c.interned.lookup text = some r) (found' : c.interned.lookup text' = some r) :
        False := by
      cases (second.known mid).symm.trans found
      obtain old | ⟨-, named⟩ := first.fresh mid
      · exact nomatch new.symm.trans old
      obtain old | ⟨vacant, -⟩ := second.fresh found'
      · exact nomatch mid'.symm.trans old
      exact Heap.cell?_ne_none_of_typeName named vacant
    cases mid : b.interned.lookup text with
    | none =>
        cases mid' : b.interned.lookup text' with
        | none => exact second.apart mid mid' found found'
        | some => exact (one new' mid' mid found' found).elim
    | some =>
        cases mid' : b.interned.lookup text' with
        | none => exact (one new mid mid' found found').elim
        | some =>
            cases (second.known mid).symm.trans found
            cases (second.known mid').symm.trans found'
            exact first.apart new new' mid mid'

end Hoarded

/-- Between two worlds the memory has changed step by step. -/
structure Stirred (w w' : World) : Prop extends Hoarded w w' where
  /-- The steps. -/
  chain : ReflTransGen Stir w w'

/-- The memory changes step by step, from a heap with its books in order on. -/
def Stirs (w w' : World) : Prop := w.heap.Arena → w.Stirred w'

namespace Stirs

variable {a b c w w' : World}

theorem single (h : w.Stir w') (same : w'.interned = w.interned) : w.Stirs w' := fun arena =>
  ⟨.of_same (h.arena arena) (h.retains arena) same, .single h⟩

theorem refl (w : World) : w.Stirs w := fun arena => ⟨.of_same arena (.refl _) rfl, .refl⟩

theorem arena (h : w.Stirs w') (arena : w.heap.Arena) : w'.heap.Arena := (h arena).arena

theorem limits (h : w.Stirs w') (arena : w.heap.Arena) :
    w'.heap.capacity = w.heap.capacity ∧ w'.heap.maxArrayLength = w.heap.maxArrayLength := by
  have chain := (h arena).chain
  clear h
  induction chain with
  | refl => exact ⟨rfl, rfl⟩
  | tail _ last ih => exact ⟨last.limits.1.trans ih.1, last.limits.2.trans ih.2⟩

theorem typeName (h : w.Stirs w') (arena : w.heap.Arena) {v : Value} {name : String}
    (named : w.heap.typeName v = .ok name) : w'.heap.typeName v = .ok name :=
  (h arena).retains.typeName named

theorem arrayAt (h : w.Stirs w') (arena : w.heap.Arena) {descriptor : String} {r : Handle}
    (held : w.heap.ArrayAt descriptor r) : w'.heap.ArrayAt descriptor r :=
  (h arena).retains.arrayAt held

theorem trans (first : a.Stirs b) (second : b.Stirs c) : a.Stirs c := fun arena =>
  have before := first arena
  have after := second before.arena
  ⟨before.toHoarded.trans after.toHoarded, before.chain.trans after.chain⟩

theorem beside (library : w'.library = w.library) (states : w'.classStates = w.classStates)
    (heap : w'.heap = w.heap) (memo : w'.fieldMemo = w.fieldMemo)
    (interned : w'.interned = w.interned) (crossings : w'.crossings = w.crossings)
    (lapses : w'.lapses = w.lapses) : w.Stirs w' :=
  single (.beside library heap (fun _ => by rw [states]) memo crossings lapses) interned

end Stirs

end World

/-! ## Invariants that hold as long as nothing is counted -/

/-- Between two states the books were kept in order, and as long as a count stayed what it was, so
did an invariant. -/
structure Upholds {σ : Type} (order : σ → Prop) (count : σ → Nat) (I : σ → Prop) (a b : σ) :
    Prop where
  /-- The books are in order. -/
  ordered : order b
  /-- What was counted is not forgotten. -/
  counted : count a ≤ count b
  /-- The invariant holds if nothing was counted. -/
  kept : count b = count a → I a → I b

/-- Seen from a state with its books in order, an invariant was upheld. -/
def Upheld {σ : Type} (order : σ → Prop) (count : σ → Nat) (I : σ → Prop) (a b : σ) : Prop :=
  order a → Upholds order count I a b

section

variable {σ : Type} {order : σ → Prop} {count : σ → Nat} {I : σ → Prop} {a b c : σ}

theorem Upholds.refl (ordered : order a) : Upholds order count I a a :=
  ⟨ordered, Nat.le_refl _, fun _ holds => holds⟩

theorem Upholds.trans (first : Upholds order count I a b) (second : Upholds order count I b c) :
    Upholds order count I a c where
  ordered := second.ordered
  counted := Nat.le_trans first.counted second.counted
  kept same holds := by
    have up := first.counted
    have up' := second.counted
    exact second.kept (by omega) (first.kept (by omega) holds)

instance : IsPreorder σ (Upheld order count I) where
  refl _ ordered := .refl ordered
  trans _ _ _ first second ordered := (first ordered).trans (second (first ordered).ordered)

end

/-- An invariant that every change of the memory upholds is upheld by all of them. -/
theorem World.Stirs.upheld {count : World → Nat} {I : World → Prop} {w w' : World}
    (stir : ∀ {a b : World}, a.Stir b → a.heap.Arena → Upholds (·.heap.Arena) count I a b)
    (h : w.Stirs w') : Upheld (·.heap.Arena) count I w w' := by
  intro arena
  have chain := (h arena).chain
  clear h
  induction chain with
  | refl => exact .refl arena
  | tail _ last before => exact before.trans (stir last before.ordered)

end JavaMachine
