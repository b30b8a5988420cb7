import JavaMachine.Proofs.Hierarchy

/-!
# Assignability

Which type may stand where another one is expected is decided by a function with a budget of array
dimensions.  `Assigns` is the relation that it decides: a type may stand for itself, an array for
one whose component its own component may stand for and for the three types above all arrays, and a
class for its ancestors.

The relation is transitive in a library whose topmost class has nothing above it and in which
nothing but the topmost class is above the two interfaces of arrays.  In any other library an array
could be assigned to an interface that is assignable to a class to which arrays are not.

It is covariant in any library.  Brackets that two descriptors have in common are taken off both at
once, until a class is compared with a class; an array over a primitive type has no component that
could be compared, so that only its own descriptor is left.
-/

namespace JavaMachine

namespace JType

/-- The array type with so many dimensions over a type. -/
def arrays : Nat → JType → JType
  | 0, t => t
  | k + 1, t => .array (t.arrays k)

end JType

namespace Library

open Relation (ReflTransGen)

variable {lib : Library} {a b c s t s' t' : List Char} {p u : JType}

/-- The topmost class has no supertypes, and the other two types above all arrays have no supertype
but the topmost class. -/
structure Rooted (lib : Library) : Prop where
  /-- Nothing is above the topmost class. -/
  object : ∀ c, lib.find? objectName = some c → c.superName = none ∧ c.interfaces = []
  /-- Nothing but the topmost class is above the interfaces of arrays. -/
  interfaces : ∀ name ∈ ["java/lang/Cloneable", "java/io/Serializable"], ∀ c,
    lib.find? name = some c → (∀ s, c.superName = some s → s = objectName) ∧
      ∀ i ∈ c.interfaces, i = objectName

/-- The first type may stand where the second one is expected.  Classes are given by name and arrays
by descriptor. -/
inductive Assigns (lib : Library) : List Char → List Char → Prop
  | same (s : List Char) : Assigns lib s s
  | components {s t s' t' : List Char} (source : componentName? s = some s')
      (target : componentName? t = some t') (fits : Assigns lib s' t') :
      Assigns lib ('[' :: s) ('[' :: t)
  | array {s t : List Char} (plain : t.head? ≠ some '[')
      (above : String.ofList t ∈ arrayAncestors) :
      Assigns lib ('[' :: s) t
  | classes {s t : List Char} (source : s.head? ≠ some '[') (target : t.head? ≠ some '[')
      (below : lib.isSubclass (String.ofList s) (String.ofList t) = true) : Assigns lib s t

/-! ## The function decides the relation -/

theorem length_componentName? (h : componentName? s = some s') : s'.length ≤ s.length := by
  unfold componentName? at h
  split at h
  · cases h
    exact Nat.le_refl _
  · split at h
    · cases h
      rw [List.length_dropLast, List.length_cons]
      omega
    · cases h
  · cases h

section

variable {n : Nat}

theorem isAssignableWithin_array (plain : t.head? ≠ some '[') :
    lib.isAssignableWithin n ('[' :: s) t = arrayAncestors.contains (String.ofList t) := by
  have other : ('[' :: s == t) = false := by
    refine beq_false_of_ne fun same => ?_
    simp [← same] at plain
  unfold isAssignableWithin
  rw [other, Bool.false_or]
  split <;> simp_all

theorem isAssignableWithin_element (plain : s.head? ≠ some '[') :
    lib.isAssignableWithin n s ('[' :: t) = false := by
  have other : (s == '[' :: t) = false := by
    refine beq_false_of_ne fun same => ?_
    simp [same] at plain
  unfold isAssignableWithin
  rw [other, Bool.false_or]
  split <;> simp_all

theorem isAssignableWithin_classes (source : s.head? ≠ some '[') (target : t.head? ≠ some '[') :
    lib.isAssignableWithin n s t =
      (s == t || lib.isSubclass (String.ofList s) (String.ofList t)) := by
  unfold isAssignableWithin
  congr 1
  split <;> simp_all

/-- What the function answers for two arrays. -/
theorem isAssignableWithin_components :
    lib.isAssignableWithin n ('[' :: s) ('[' :: t) = true ↔ s = t ∨
      ∃ k s' t', n = k + 1 ∧ componentName? s = some s' ∧ componentName? t = some t' ∧
        lib.isAssignableWithin k s' t' = true := by
  conv_lhs => unfold isAssignableWithin
  cases n with
  | zero => simp
  | succ n =>
      simp only [Bool.or_eq_true, beq_iff_eq, List.cons.injEq, true_and]
      refine or_congr_right ?_
      cases source : componentName? s <;> cases target : componentName? t <;> simp

end

theorem eq_cons_of_head? {d : Char} (h : s.head? = some d) : ∃ rest, s = d :: rest := by
  cases s with
  | nil => cases h
  | cons e rest =>
      cases h
      exact ⟨rest, rfl⟩

theorem assigns_of_within {n : Nat} : ∀ {s t : List Char},
    lib.isAssignableWithin n s t = true → lib.Assigns s t := by
  induction n using Nat.strong_induction_on with
  | h n ih =>
      intro s t h
      by_cases source : s.head? = some '['
      · obtain ⟨s, rfl⟩ := eq_cons_of_head? source
        by_cases target : t.head? = some '['
        · obtain ⟨t, rfl⟩ := eq_cons_of_head? target
          obtain rfl | ⟨k, s', t', rfl, below, above, fits⟩ := isAssignableWithin_components.mp h
          · exact .same _
          · exact .components below above (ih k (Nat.lt_succ_self k) fits)
        · rw [isAssignableWithin_array target] at h
          exact .array target (List.contains_iff_mem.mp h)
      · by_cases target : t.head? = some '['
        · obtain ⟨t, rfl⟩ := eq_cons_of_head? target
          rw [isAssignableWithin_element source] at h
          cases h
        · rw [isAssignableWithin_classes source target, Bool.or_eq_true] at h
          rcases h with same | below
          · rw [eq_of_beq same]
            exact .same t
          · exact .classes source target below

theorem within_of_assigns (h : lib.Assigns s t) : ∀ {n : Nat}, s.length ≤ n →
    lib.isAssignableWithin n s t = true := by
  induction h with
  | same s =>
      intro n _
      unfold isAssignableWithin
      rw [beq_self_eq_true, Bool.true_or]
  | @components s t s' t' source target _ ih =>
      intro n bound
      obtain ⟨k, rfl⟩ : ∃ k, n = k + 1 := ⟨n - 1, by simp at bound; omega⟩
      have shorter := length_componentName? source
      refine isAssignableWithin_components.mpr (.inr ⟨k, s', t', rfl, source, target, ih ?_⟩)
      simp only [List.length_cons] at bound
      omega
  | array plain above =>
      intro n _
      rw [isAssignableWithin_array plain]
      exact List.contains_iff_mem.mpr above
  | classes source target below =>
      intro n _
      rw [isAssignableWithin_classes source target, below, Bool.or_true]

theorem isAssignable_iff {source target : String} :
    lib.isAssignable source target = true ↔ lib.Assigns source.toList target.toList :=
  ⟨assigns_of_within, fun h => within_of_assigns h (by rw [String.length_toList])⟩

/-! ## Transitivity -/

theorem isSubclass_trans {x y z : String} (first : lib.isSubclass x y = true)
    (second : lib.isSubclass y z = true) : lib.isSubclass x z = true := by
  rw [isSubclass_iff_ancestor] at *
  exact ReflTransGen.trans first second

/-- What is above one of the types above all arrays is one of them. -/
theorem Rooted.above_arrays (rooted : lib.Rooted) {x y : String} (array : x ∈ arrayAncestors)
    (above : lib.isSubclass x y = true) : y ∈ arrayAncestors := by
  rw [isSubclass_iff_ancestor] at above
  induction above with
  | refl => exact array
  | @tail y z _ parent ih =>
      obtain ⟨c, found, up⟩ := parent
      by_cases top : y = objectName
      · subst top
        obtain ⟨none, empty⟩ := rooted.object c found
        simp [none, empty] at up
      · have listed : y ∈ ["java/lang/Cloneable", "java/io/Serializable"] := by
          simpa [arrayAncestors, top] using ih
        obtain ⟨super, interfaces⟩ := rooted.interfaces y listed c found
        have root : z = objectName := up.elim (interfaces z) (super z)
        simp [arrayAncestors, root]

theorem Assigns.trans (rooted : lib.Rooted) (first : lib.Assigns a b) :
    ∀ {c : List Char}, lib.Assigns b c → lib.Assigns a c := by
  induction first with
  | same => exact id
  | @components s t s' t' source target fits ih =>
      intro c second
      cases second with
      | same => exact .components source target fits
      | components source' target' fits' =>
          cases target.symm.trans source'
          exact .components source target' (ih fits')
      | array plain above => exact .array plain above
      | classes bracket => simp at bracket
  | array plain above =>
      intro c second
      cases second with
      | same => exact .array plain above
      | components => simp at plain
      | array => simp at plain
      | classes _ target below => exact .array target (rooted.above_arrays above below)
  | classes source target below =>
      intro c second
      cases second with
      | same => exact .classes source target below
      | components => simp at target
      | array => simp at target
      | classes _ target' below' => exact .classes source target' (isSubclass_trans below below')

/-! ## Arrays of so many dimensions -/

@[simp] theorem componentName?_reference (name : String) :
    componentName? (JType.reference name).encode = some name.toList := by
  simp [componentName?, JType.encode]

@[simp] theorem componentName?_array (t : JType) :
    componentName? (JType.array t).encode = some (JType.array t).encode := rfl

@[simp] theorem componentName?_primitive (primitive : p.isReference = false) :
    componentName? p.encode = none := by
  cases p with
  | reference => cases primitive
  | array => cases primitive
  | _ => rfl

/-- The descriptor of a primitive type is the descriptor of no other type. -/
theorem encode_primitive (primitive : p.isReference = false) (same : p.encode = u.encode) :
    p = u := by
  cases p <;> cases u <;> simp_all [JType.encode, JType.isReference]

/-- Arrays are compared by their components when these are class or array types. -/
theorem assigns_components_iff (source : componentName? s = some s')
    (target : componentName? t = some t') :
    lib.Assigns ('[' :: s) ('[' :: t) ↔ lib.Assigns s' t' := by
  constructor
  · intro h
    cases h with
    | same =>
        cases source.symm.trans target
        exact .same s'
    | components source' target' fits =>
        cases source.symm.trans source'
        cases target.symm.trans target'
        exact fits
    | array plain => simp at plain
    | classes plain => simp at plain
  · exact .components source target

/-- An array whose component has no class name is assignable to no other array, and no other array
is assignable to it. -/
theorem eq_of_assigns (h : lib.Assigns ('[' :: s) ('[' :: t))
    (primitive : componentName? s = none ∨ componentName? t = none) : s = t := by
  cases h with
  | same => rfl
  | components source target =>
      rcases primitive with none | none
      · rw [none] at source; cases source
      · rw [none] at target; cases target
  | array plain => simp at plain
  | classes plain => simp at plain

theorem assigns_arrays_succ {k : Nat} :
    lib.Assigns (p.arrays (k + 2)).encode (u.arrays (k + 2)).encode ↔
      lib.Assigns (p.arrays (k + 1)).encode (u.arrays (k + 1)).encode :=
  assigns_components_iff (componentName?_array _) (componentName?_array _)

/-- However many dimensions they have, arrays of objects are assignable as their classes are. -/
theorem assigns_arrays_reference {x y : String} (k : Nat) :
    lib.Assigns ((JType.reference x).arrays (k + 1)).encode
      ((JType.reference y).arrays (k + 1)).encode ↔ lib.Assigns x.toList y.toList := by
  induction k with
  | zero => exact assigns_components_iff (componentName?_reference x) (componentName?_reference y)
  | succ k ih => exact assigns_arrays_succ.trans ih

/-- However many dimensions they have, two arrays one of which is over a primitive type are
assignable only if the other one is over the same type. -/
theorem eq_of_assigns_arrays {k : Nat}
    (h : lib.Assigns (p.arrays (k + 1)).encode (u.arrays (k + 1)).encode)
    (primitive : p.isReference = false ∨ u.isReference = false) : p = u := by
  induction k with
  | zero =>
      have same : p.encode = u.encode :=
        eq_of_assigns h (primitive.imp componentName?_primitive componentName?_primitive)
      rcases primitive with source | target
      · exact encode_primitive source same
      · exact (encode_primitive target same.symm).symm
  | succ k ih => exact ih (assigns_arrays_succ.mp h)

theorem isAssignable_descriptor : lib.isAssignable p.descriptor u.descriptor = true ↔
    lib.Assigns p.encode u.encode := by
  rw [isAssignable_iff, JType.descriptor, JType.descriptor, String.toList_ofList,
    String.toList_ofList]

/-- Assignability is a covariant preorder.  In a library in which the topmost class has nothing
above it and the interfaces of arrays nothing but that one, it is reflexive and transitive on the
names of all types.  With as many dimensions on both sides, arrays of objects are assignable exactly
when their classes are, and an array over a primitive type is assignable neither to nor from an
array over another type, be that primitive or not. -/
theorem isAssignable_covariant (rooted : lib.Rooted) :
    (∀ x, lib.isAssignable x x = true) ∧
    (∀ x y z, lib.isAssignable x y = true → lib.isAssignable y z = true →
      lib.isAssignable x z = true) ∧
    (∀ k (x y : String), lib.isAssignable ((JType.reference x).arrays (k + 1)).descriptor
      ((JType.reference y).arrays (k + 1)).descriptor = lib.isAssignable x y) ∧
    ∀ k (p u : JType), p.isReference = false → u ≠ p →
      lib.isAssignable (p.arrays (k + 1)).descriptor (u.arrays (k + 1)).descriptor = false ∧
      lib.isAssignable (u.arrays (k + 1)).descriptor (p.arrays (k + 1)).descriptor = false := by
  refine ⟨fun x => ?_, fun x y z first second => ?_, fun k x y => ?_,
    fun k p u primitive other => ?_⟩
  · exact isAssignable_iff.mpr (.same _)
  · rw [isAssignable_iff] at *
    exact first.trans rooted second
  · rw [Bool.eq_iff_iff, isAssignable_descriptor, assigns_arrays_reference, isAssignable_iff]
  · constructor
    · rw [← Bool.not_eq_true, isAssignable_descriptor]
      exact fun h => other (eq_of_assigns_arrays h (.inl primitive)).symm
    · rw [← Bool.not_eq_true, isAssignable_descriptor]
      exact fun h => other (eq_of_assigns_arrays h (.inr primitive))

end Library

namespace Sample

/-- A type without members. -/
def bare (name : String) (superName : Option String) (interfaces : List String) (id : Nat) :
    LoadedClass :=
  { name, superName, interfaces, id
    flags := ⟨0x0021⟩, pool := #[.empty], methods := [], fields := [] }

/-- The types above all arrays, and a class that can be cloned. -/
def cloneable : Library :=
  ⟨[bare "A" (some objectName) ["java/lang/Cloneable"] 3,
    bare "java/io/Serializable" (some objectName) [] 2,
    bare "java/lang/Cloneable" (some objectName) [] 1, bare objectName none [] 0]⟩

theorem cloneable_rooted : cloneable.Rooted := by
  constructor
  · rintro c ⟨⟩
    exact ⟨rfl, rfl⟩
  · intro name listed c found
    rcases List.mem_pair.mp listed with rfl | rfl <;> cases found <;>
      exact ⟨fun s above => (Option.some.inj above).symm, nofun⟩

end Sample

namespace Library

theorem isAssignable_covariant_cloneable :
    let lib := Sample.cloneable
    lib.Rooted ∧ lib.isAssignable "[[LA;" "[Ljava/lang/Object;" = true ∧
      lib.isAssignable "[[I" "[[LA;" = false := by
  obtain ⟨-, trans, covariant, primitive⟩ := isAssignable_covariant Sample.cloneable_rooted
  refine ⟨Sample.cloneable_rooted, ?_, ?_⟩
  · have deep : Sample.cloneable.isAssignable "[[LA;" "[[Ljava/lang/Cloneable;" = true :=
      (covariant 1 "A" "java/lang/Cloneable").trans (by decide +kernel)
    exact trans _ _ _ deep (by decide +kernel)
  · exact (primitive 1 .int (.reference "A") rfl nofun).1

end Library

end JavaMachine
