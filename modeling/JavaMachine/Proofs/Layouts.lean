import JavaMachine.Proofs.FieldTypes
import JavaMachine.Proofs.Overriding

/-!
# Fields of objects found again

A field reference is resolved in a class, then among the classes that it names as interfaces, then in
its superclass, and the answer is remembered.  An object has slots for the instance fields of its
class and of the superclasses of that, and a resolved field is searched for once more among them, by
its name and its class.  This file compares the two ways.

*Names.*  Two fields that references mean are the same if they have the same name and class, so a
store through one of them is not seen through another one.  That is so for all fields, whether they
shadow each other or not.

*Reach.*  Resolution may leave the superclass chain through an interface, and an object has no slots
for what is declared there.  An interface is resolved like any other class, so its superclass is
searched, too.  `Library.InterfacesStatic` is what makes up for that: what is reached through an
interface is static.
-/

namespace JavaMachine

open Exec
open Relation (ReflTransGen)

namespace Library

variable {lib : Library} {c : LoadedClass} {f g : FieldRef} {className name s t k : String}

/-! ## The way of a resolution -/

/-- A field that a class means is declared by the class itself, or a class that it names as an
interface means it, or its superclass does. -/
theorem findFieldWithin_cases {n : Nat} (h : lib.findFieldWithin (n + 1) className name = some f) :
    ∃ c, lib.find? className = some c ∧ (c.field? name = some f ∨
      (∃ i ∈ c.interfaces, lib.findFieldWithin n i name = some f) ∨
      ∃ super, c.superName = some super ∧ lib.findFieldWithin n super name = some f) := by
  unfold findFieldWithin at h
  obtain ⟨c, looked, h⟩ := Option.bind_eq_some_iff.mp h
  refine ⟨c, looked, ?_⟩
  rw [Option.orElse_eq_orElse, Option.orElse_eq_or, Option.orElse_eq_or, Option.or_eq_some_iff,
    Option.or_eq_some_iff] at h
  obtain own | ⟨-, between | ⟨-, above⟩⟩ := h
  · exact .inl own
  · exact .inr (.inl (List.exists_of_findSome?_eq_some between))
  · exact .inr (.inr (Option.bind_eq_some_iff.mp above))

/-- A class is named as an interface by a class of the library. -/
def NamesInterface (lib : Library) (name : String) : Prop :=
  ∃ s c, lib.find? s = some c ∧ name ∈ c.interfaces

/-- The classes that are named as interfaces and the superclasses of these have only static
fields. -/
def InterfacesStatic (lib : Library) : Prop :=
  ∀ i k c, lib.NamesInterface i → lib.Superclass i k → lib.find? k = some c →
    ∀ f ∈ c.fields, f.flags.isStatic = true

/-- What is reached through an interface is static. -/
theorem findFieldWithin_interface (static : lib.InterfacesStatic) :
    ∀ {n : Nat} {i k : String}, lib.NamesInterface i → lib.Superclass i k →
      lib.findFieldWithin n k name = some f → f.decl.flags.isStatic = true
  | 0, _, _, _, _, found => nomatch found
  | n + 1, i, k, named, way, found => by
      obtain ⟨c, looked, own | ⟨j, listed, found⟩ | ⟨super, above, found⟩⟩ :=
        findFieldWithin_cases found
      · exact static i k c named way looked _ (List.mem_of_getElem? (field?_eq_some own).2.1)
      · exact findFieldWithin_interface static ⟨k, c, looked, listed⟩ .refl found
      · exact findFieldWithin_interface static named (way.tail ⟨c, looked, above⟩) found

/-- A field of objects that a class means is declared by the class or one of its superclasses. -/
theorem findFieldWithin_superclass (static : lib.InterfacesStatic)
    (ofObjects : f.decl.flags.isStatic = false) : ∀ {n : Nat} {s : String},
      lib.findFieldWithin n s name = some f →
        ∃ k c, lib.Superclass s k ∧ lib.find? k = some c ∧ c.field? name = some f
  | 0, _, found => nomatch found
  | n + 1, s, found => by
      obtain ⟨c, looked, own | ⟨i, listed, found⟩ | ⟨super, above, found⟩⟩ :=
        findFieldWithin_cases found
      · exact ⟨s, c, .refl, looked, own⟩
      · have reached := findFieldWithin_interface static ⟨s, c, looked, listed⟩ .refl found
        exact nomatch ofObjects.symm.trans reached
      · obtain ⟨k, d, way, looked', own⟩ := findFieldWithin_superclass static ofObjects found
        exact ⟨k, d, .head ⟨c, looked, above⟩ way, looked', own⟩

/-- A field of objects that a superclass of a class means is a field of the objects of the class. -/
theorem findField_mem_instanceFields (static : lib.InterfacesStatic)
    (known : lib.find? c.name = some c) (way : lib.Superclass c.name s)
    (found : lib.findField s name = some f) (ofObjects : f.decl.flags.isStatic = false) :
    f.decl ∈ lib.instanceFields c := by
  obtain ⟨k, d, above, looked, own⟩ := findFieldWithin_superclass static ofObjects found
  have listed : d ∈ lib.lineage c := (mem_lineage known).mpr ⟨k, ReflTransGen.trans way above, looked⟩
  refine List.mem_flatMap.mpr ⟨d, listed, List.mem_filter.mpr ⟨?_, by simp [ofObjects]⟩⟩
  exact List.mem_of_getElem? (field?_eq_some own).2.1

/-- Declared fields of one name and one class are the same. -/
theorem Declares.unique (owns : lib.Owns) (first : lib.Declares f) (second : lib.Declares g)
    (name : f.decl.name = g.decl.name) (className : f.decl.className = g.decl.className) :
    f = g := by
  obtain ⟨c, looked, own⟩ := first
  obtain ⟨d, looked', own'⟩ := second
  have bears := owns c (mem_of_find? looked) _ (List.mem_of_getElem? (field?_eq_some own).2.1)
  have bears' := owns d (mem_of_find? looked') _ (List.mem_of_getElem? (field?_eq_some own').2.1)
  rw [← bears, className, bears', looked'] at looked
  cases looked
  rw [name, own'] at own
  exact (Option.some.inj own).symm

end Library

/-! ## Slots -/

namespace Slot

variable {f g : FieldDecl} {v : Value}

/-- A store leaves the fields of the slots what they are. -/
theorem map_field_store : ∀ slots : List Slot, (store f v slots).map field = slots.map field
  | [] => rfl
  | s :: slots => by
      unfold store
      split
      · rfl
      · exact congrArg (s.field :: ·) (map_field_store slots)

/-- What was stored is found again. -/
theorem find?_store_self : ∀ {slots : List Slot}, slots.any (·.holds f) = true →
    ∃ s, (store f v slots).find? (·.holds f) = some s ∧ s.value = v
  | [], held => nomatch held
  | s :: slots, held => by
      unfold store
      cases here : s.holds f with
      | true => exact ⟨{ s with value := v }, List.find?_cons_of_pos here, rfl⟩
      | false =>
          rw [List.any_cons, here, Bool.false_or] at held
          rw [if_neg Bool.false_ne_true, List.find?_cons, here]
          exact find?_store_self held

/-- What is found for another field is what it was. -/
theorem find?_store_other (other : ∀ s : Slot, s.holds f = true → s.holds g = false) :
    ∀ slots : List Slot, (store f v slots).find? (·.holds g) = slots.find? (·.holds g)
  | [] => rfl
  | s :: slots => by
      unfold store
      cases here : s.holds f with
      | true =>
          have stored : ({ s with value := v } : Slot).holds g = false := other s here
          rw [if_pos rfl, List.find?_cons, List.find?_cons, stored, other s here]
      | false =>
          rw [if_neg Bool.false_ne_true, List.find?_cons, List.find?_cons,
            find?_store_other other slots]

end Slot

namespace Heap

variable {h h' : Heap} {r : Handle} {cls : LoadedClass} {slots : List Slot} {f g : FieldDecl}
  {v : Value}

theorem getField_of_object (found : h.object r = .ok (cls, slots)) {s : Slot}
    (held : slots.find? (·.holds f) = some s) : h.getField r f = .ok s.value := by
  unfold getField
  simp only [found, bind, Except.bind, held]
  rfl

theorem object_replaced {slots' : List Slot} (found : h.object r = .ok (cls, slots)) :
    (h.replace r (.object cls slots')).object r = .ok (cls, slots') := by
  obtain ⟨serial, cell⟩ := entry_eq_ok.mp (object_eq_ok.mp found)
  exact object_eq_ok.mpr (entry_eq_ok.mpr ⟨serial, by rw [cell?_replace, if_pos rfl, cell]; rfl⟩)

/-- A store into a field is not seen through one of another name or another class. -/
theorem getField_replaced (found : h.object r = .ok (cls, slots))
    (other : ¬ (f.name = g.name ∧ f.className = g.className)) :
    (h.replace r (.object cls (Slot.store f v slots))).getField r g = h.getField r g := by
  have apart (s : Slot) (held : s.holds f = true) : s.holds g = false := by
    refine Bool.eq_false_iff.mpr fun held' => other ?_
    simp only [Slot.holds, Bool.and_eq_true, beq_iff_eq] at held held'
    exact ⟨held.1.symm.trans held'.1, held.2.symm.trans held'.2⟩
  unfold getField
  simp only [object_replaced found, found, bind, Except.bind, Slot.find?_store_other apart]

end Heap

/-! ## Objects as they are made -/

/-- The handle names an object of a class that has the fields of such objects. -/
def World.InstanceAt (w : World) (r : Handle) (cls : LoadedClass) : Prop :=
  ∃ slots, w.heap.object r = .ok (cls, slots) ∧
    slots.map Slot.field = w.library.instanceFields cls

/-- A new object has the fields of its class. -/
theorem World.instanceAt_allocateObject {w : World} {cls : LoadedClass} {reserved : Bool}
    {r : Handle} {heap : Heap} (arena : w.heap.Arena)
    (made : w.heap.allocateObject cls (w.library.instanceFields cls) reserved = .ok (r, heap)) :
    ({ w with heap } : World).InstanceAt r cls := by
  have there := Heap.entry_eq_ok.mpr ⟨_, ((arena.grown made).cells r).trans (if_pos rfl)⟩
  exact ⟨_, Heap.object_eq_ok.mpr there, by simp [Function.comp_def]⟩

/-- A reference means a field, whether it is resolved for the first time or not. -/
def Machine.Resolves (m : Machine) (className name : String) (f : FieldRef) : Prop :=
  ∃ s m', resolveField className name s m = .ok (some f) m'

/-- What a reference means is what the library finds. -/
theorem Machine.Resolves.found {m : Machine} {className name : String} {f : FieldRef}
    (resolves : m.Resolves className name f) (memo : m.world.MemoAgrees) :
    m.world.library.findField className name = some f := by
  obtain ⟨s, m', run⟩ := resolves
  have same : m.SameThreadClasses m' := (resolveField_keeps className name).of_ok run
  obtain known | found := same.world.memo _ _ (resolveField_ok run)
  · exact memo known
  · exact found

/-- Where the fields of objects are and what references to them mean agree.  Let the classes that are
named as interfaces have only static fields, and let the superclasses of these have no others.  Let
an object be as its class says, and let the class or a superclass of it mean a field of objects by a
name.  Then the field of the object is read and stored into.  What was stored is read again, the
object is still as its class says, and through any other field that a reference means, one of the
same name included, the object looks as it did before. -/
theorem Machine.resolved_fields_agree {m : Machine} {cls : LoadedClass} {r : Handle}
    {className name : String} {f : FieldRef} (owns : m.world.library.Owns)
    (memo : m.world.MemoAgrees) (static : m.world.library.InterfacesStatic)
    (known : m.world.library.find? cls.name = some cls) (object : m.world.InstanceAt r cls)
    (above : m.world.library.Superclass cls.name className) (means : m.Resolves className name f)
    (ofObjects : f.decl.flags.isStatic = false) (v : Value) :
    ∃ u heap, m.world.heap.getField r f.decl = .ok u ∧
      m.world.heap.setField r f.decl v = .ok heap ∧ heap.getField r f.decl = .ok v ∧
      ({ m.world with heap } : World).InstanceAt r cls ∧
      ∀ className' name' g, m.Resolves className' name' g → g ≠ f →
        heap.getField r g.decl = m.world.heap.getField r g.decl := by
  obtain ⟨slots, found, fields⟩ := object
  have resolved := means.found memo
  have listed := Library.findField_mem_instanceFields static known above resolved ofObjects
  rw [← fields] at listed
  obtain ⟨s, inside, same⟩ := List.mem_map.mp listed
  have held : slots.any (·.holds f.decl) = true :=
    List.any_eq_true.mpr ⟨s, inside, by simp [Slot.holds, same]⟩
  obtain ⟨first, read⟩ := Option.isSome_iff_exists.mp
    (List.find?_isSome.mpr (List.any_eq_true.mp held))
  obtain ⟨last, stored, value⟩ := Slot.find?_store_self (v := v) held
  refine ⟨first.value, _, Heap.getField_of_object found read,
    Heap.setField_held (Heap.object_eq_ok.mp found) held v, ?_,
    ⟨_, Heap.object_replaced found, (Slot.map_field_store slots).trans fields⟩,
    fun className' name' g means' other => ?_⟩
  · rw [Heap.getField_of_object (Heap.object_replaced found) stored, value]
  · refine Heap.getField_replaced found fun same => other ?_
    exact (Library.findField_declares (means'.found memo)).unique owns
      (Library.findField_declares resolved) same.1.symm same.2.symm

namespace Sample

/-- A field of objects for an int. -/
def counter (className : String) : FieldDecl := ⟨"f", "I", ⟨0⟩, className, .int⟩

/-- A class below another one with such a field. -/
def counting (name super : String) (id : Nat) : LoadedClass :=
  { tier name super [] id with fields := [counter name] }

/-- A class that shadows the field of its superclass. -/
def shadowing : Library :=
  ⟨[counting "B" "A" 2, counting "A" objectName 1,
    { tier objectName "" [] 0 with superName := none }]⟩

/-- A world with an object of it. -/
def shadowed : World where
  library := shadowing
  heap :=
    { cells := #[some ⟨0, .object (counting "B" "A" 2)
        [⟨counter "B", .int 0⟩, ⟨counter "A", .int 0⟩]⟩]
      live := 1
      made := 1 }

theorem shadowing_interfacesStatic : shadowing.InterfacesStatic := by
  have none : ∀ c ∈ shadowing.classes, c.interfaces = [] := by decide
  rintro i k c ⟨s, d, looked, listed⟩
  rw [none d (Library.mem_of_find? looked)] at listed
  cases listed

/-- A class that names another one as an interface.  The superclass of that one has a field of
objects. -/
def slanted : Library :=
  ⟨[{ tier "C" objectName [] 3 with interfaces := ["I"] }, tier "I" "S" [] 2,
    counting "S" objectName 1, { tier objectName "" [] 0 with superName := none }]⟩

/-- A machine in a world with an object of the class. -/
def slant : Machine where
  world :=
    { library := slanted
      heap :=
        { cells := #[some ⟨0, .object { tier "C" objectName [] 3 with interfaces := ["I"] } []⟩]
          live := 1
          made := 1 } }
  thread := { id := 0 }

end Sample

/-- Through the shadowing field the object holds what was stored there, through the other one what it
held before. -/
theorem Machine.resolved_fields_agree_shadowed :
    let m : Machine := ⟨Sample.shadowed, { id := 0 }⟩
    let cls := Sample.counting "B" "A" 2
    let f : FieldRef := ⟨cls.ref, 0, Sample.counter "B"⟩
    let g : FieldRef := ⟨(Sample.counting "A" objectName 1).ref, 0, Sample.counter "A"⟩
    m.world.library.Owns ∧ m.world.InstanceAt ⟨0⟩ cls ∧ m.Resolves "B" "f" f ∧
      m.Resolves "A" "f" g ∧
      ∃ heap, m.world.heap.setField ⟨0⟩ f.decl (.int 5) = .ok heap ∧
        heap.getField ⟨0⟩ f.decl = .ok (.int 5) ∧ heap.getField ⟨0⟩ g.decl = .ok (.int 0) := by
  intro m cls f g
  have owns : m.world.library.Owns := by unfold Library.Owns; decide
  have made : ({} : Heap).allocateObject cls (Sample.shadowing.instanceFields cls) false =
      .ok (⟨0⟩, Sample.shadowed.heap) := rfl
  have object : m.world.InstanceAt ⟨0⟩ cls :=
    World.instanceAt_allocateObject (w := { library := Sample.shadowing }) (.blank none none) made
  have means : m.Resolves "B" "f" f := ⟨{}, _, rfl⟩
  have means' : m.Resolves "A" "f" g := ⟨{}, _, rfl⟩
  obtain ⟨u, heap, -, stored, read, -, apart⟩ := resolved_fields_agree owns nofun
    Sample.shadowing_interfacesStatic rfl object .refl means Flags.isStatic_none (.int 5)
  exact ⟨owns, object, means, means', heap, stored, read, apart "A" "f" g means' (by decide)⟩

/-- A class means a field of objects by a name, the classes that are named as interfaces have only
static fields, and the objects of the class do not have that field: it belongs to the superclass of an
interface. -/
theorem Machine.resolved_field_missed :
    let m := Sample.slant
    let lib := m.world.library
    ∃ cls f, lib.Acyclic ∧ lib.Owns ∧
      (∀ i c, lib.NamesInterface i → lib.find? i = some c →
        ∀ g ∈ c.fields, g.flags.isStatic = true) ∧
      lib.find? cls.name = some cls ∧ m.world.InstanceAt ⟨0⟩ cls ∧
      m.Resolves cls.name "f" f ∧ f.decl.flags.isStatic = false ∧
      m.world.heap.getField ⟨0⟩ f.decl = .error (.unresolvedField "C" "f") := by
  intro m lib
  refine ⟨_, ⟨(Sample.counting "S" objectName 1).ref, 0, Sample.counter "S"⟩,
    Library.acyclic_of_rank (Sample.floor ["S", "I", "C"]) (by decide),
    by unfold Library.Owns; decide, ?_, rfl, ⟨_, rfl, rfl⟩, ⟨{}, _, rfl⟩, Flags.isStatic_none, rfl⟩
  rintro i c ⟨s, d, looked, listed⟩ looked'
  have only : ∀ d ∈ lib.classes, ∀ i ∈ d.interfaces, i = "I" := by decide
  cases only d (Library.mem_of_find? looked) i listed
  cases looked'
  exact nofun

end JavaMachine
