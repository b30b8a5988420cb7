import JavaMachine.ClassDecl
import Mathlib

/-!
# Constants and their indices

The index that a constant was given names that constant in the finished class, whatever was put
into the pool before and after it.  Three facts carry this: a pool only grows, the first entry that
equals a constant is the first constant put in that does, and a long or a double keeps the empty
entry behind it.

The index names the constant on two conditions.  Entries are compared as numbers, so a zero is
given the index of an earlier zero of the other sign; and an index has sixteen bits, so a constant
at a place beyond them is given an index that is not its own.
-/

namespace JavaMachine

/-! ## Equal entries -/

namespace Constant

variable {a b c : Constant}

/-- Equal entries are one entry, or two numbers that are equal as floating-point numbers. -/
theorem same_cases (h : a.same b = true) :
    a = b ∨ (∃ x y, a = .float x ∧ b = .float y ∧ (x == y) = true) ∨
      (∃ x y, a = .double x ∧ b = .double y ∧ (x == y) = true) := by
  cases a <;> cases b <;> simp_all [same]

/-- A floating-point zero of either sign. -/
def IsZero : Constant → Prop
  | float v => v = 0 ∨ v = -0
  | double v => v = 0 ∨ v = -0
  | _ => False

/-- Equal entries that are not one entry are zeros. -/
theorem same_zero (h : a.same b = true) : a = b ∨ b.IsZero := by
  obtain rfl | ⟨x, y, rfl, rfl, equal⟩ | ⟨x, y, rfl, rfl, equal⟩ := same_cases h
  · exact .inl rfl
  · obtain ⟨-, -, rfl | ⟨-, rfl⟩ | ⟨-, rfl⟩⟩ := Float32.beq_iff_ne_nan_and_eq.mp equal
    · exact .inl rfl
    · exact .inr (.inr rfl)
    · exact .inr (.inl rfl)
  · obtain ⟨-, -, rfl | ⟨-, rfl⟩ | ⟨-, rfl⟩⟩ := Float.beq_iff_ne_nan_and_eq.mp equal
    · exact .inl rfl
    · exact .inr (.inr rfl)
    · exact .inr (.inl rfl)

theorem same_trans (h : a.same b = true) (h' : b.same c = true) : a.same c = true := by
  obtain rfl | ⟨x, y, rfl, rfl, hxy⟩ | ⟨x, y, rfl, rfl, hxy⟩ := same_cases h
  · exact h'
  all_goals
    cases c <;> try cases h'
    exact PartialEquivBEq.trans hxy h'

theorem eq_empty_of_same (h : Constant.empty.same a = true) : a = .empty := by
  cases a <;> first | rfl | cases h

end Constant

/-! ## Where a constant is put -/

namespace Pool

variable {pool larger : Pool} {c d e : Constant} {cs : List Constant} {i : Nat}

/-- The place that a constant is given: that of the first equal entry, unless it is the one at
index zero, or the end of the pool. -/
def place (pool : Pool) (c : Constant) : Nat :=
  match pool.findIdx? (·.same c) with
  | some (index + 1) => index + 1
  | _ => pool.size

/-- One pool starts with the entries of another. -/
def Extends (pool larger : Pool) : Prop :=
  ∀ (i : Nat) (c : Constant), pool[i]? = some c → larger[i]? = some c

/-- Every long and double of a pool has the empty entry behind it. -/
def Spaced (pool : Pool) : Prop :=
  ∀ (i : Nat) (c : Constant), pool[i]? = some c → c.isWide = true → pool[i + 1]? = some .empty

/-- A constant is found at a place behind index zero, and the pool stays as it is, or it is put at
the end. -/
theorem add_cases (pool : Pool) (c : Constant) :
    (∃ d, pool[pool.place c]? = some d ∧ pool.find? (·.same c) = some d ∧
        (pool.add c).1 = pool) ∨
      (pool.place c = pool.size ∧
        (pool.add c).1 = if c.isWide then (pool.push c).push .empty else pool.push c) := by
  unfold place add
  generalize h : pool.findIdx? (·.same c) = found
  rcases found with - | - | index
  · exact .inr ⟨rfl, rfl⟩
  · exact .inr ⟨rfl, rfl⟩
  · obtain ⟨bound, equal, first⟩ := Array.findIdx?_eq_some_iff_getElem.mp h
    refine .inl ⟨pool[index + 1], Array.getElem?_eq_getElem bound, ?_, rfl⟩
    exact Array.find?_eq_some_iff_getElem.mpr
      ⟨equal, index + 1, bound, rfl, fun j earlier => by simpa using first j earlier⟩

/-- The index is the place, as far as sixteen bits hold it. -/
theorem add_index (pool : Pool) (c : Constant) : (pool.add c).2 = (pool.place c).toUInt16 := by
  unfold place add
  generalize pool.findIdx? (·.same c) = found
  rcases found with - | - | index <;> rfl

/-! ## What putting a constant in keeps -/

theorem Extends.push (pool : Pool) (c : Constant) : pool.Extends (pool.push c) := by
  intro i d found
  obtain ⟨bound, rfl⟩ := Array.getElem?_eq_some_iff.mp found
  exact Array.getElem?_push_lt bound

theorem Extends.trans {largest : Pool} (h : pool.Extends larger) (h' : larger.Extends largest) :
    pool.Extends largest :=
  fun i c found => h' i c (h i c found)

theorem add_extends (pool : Pool) (c : Constant) : pool.Extends (pool.add c).1 := by
  obtain ⟨-, -, -, kept⟩ | ⟨-, grown⟩ := pool.add_cases c
  · rw [kept]
    exact fun _ _ found => found
  · rw [grown]
    split
    · exact (Extends.push pool c).trans (Extends.push _ _)
    · exact Extends.push pool c

theorem addAll_extends : ∀ (pool : Pool) (cs : List Constant), pool.Extends (pool.addAll cs).1
  | _, [] => fun _ _ found => found
  | pool, c :: cs => (pool.add_extends c).trans (addAll_extends (pool.add c).1 cs)

theorem Spaced.push (spaced : pool.Spaced) (narrow : c.isWide = false) :
    Spaced (pool.push c) := by
  intro i d found wide
  rw [Array.getElem?_push] at found
  split at found
  · next last =>
      cases found
      rw [narrow] at wide
      cases wide
  · exact Extends.push pool c _ _ (spaced i d found wide)

theorem Spaced.push_empty (spaced : pool.Spaced) (c : Constant) :
    Spaced ((pool.push c).push .empty) := by
  intro i d found wide
  rw [Array.getElem?_push] at found
  split at found
  · cases found
    cases wide
  · rw [Array.getElem?_push] at found
    split at found
    · next last =>
        subst last
        have size : (pool.push c).size = pool.size + 1 := Array.size_push c
        rw [← size]
        exact Array.getElem?_push_size
    · exact Extends.push _ _ _ _ (Extends.push pool c _ _ (spaced i d found wide))

theorem Spaced.add (spaced : pool.Spaced) (c : Constant) : (pool.add c).1.Spaced := by
  obtain ⟨-, -, -, kept⟩ | ⟨-, grown⟩ := pool.add_cases c
  · rw [kept]
    exact spaced
  · rw [grown]
    split
    · exact spaced.push_empty c
    · next narrow => exact spaced.push (by simpa using narrow)

theorem Spaced.addAll : ∀ {pool : Pool}, pool.Spaced → ∀ cs : List Constant,
    (pool.addAll cs).1.Spaced
  | _, spaced, [] => spaced
  | _, spaced, c :: cs => Spaced.addAll (spaced.add c) cs

theorem blank_spaced : blank.Spaced := by
  intro i c found wide
  obtain ⟨bound, rfl⟩ := Array.getElem?_eq_some_iff.mp found
  obtain rfl : i = 0 := Nat.lt_one_iff.mp bound
  cases wide

/-! ## The first equal entry -/

/-- Looking for an entry that equals `e` among what a pool holds after a constant was put in is
looking in the pool first and then at the constant. -/
theorem find?_add (pool : Pool) (c : Constant) (stands : e ≠ .empty) :
    (pool.add c).1.find? (·.same e) =
      (pool.find? (·.same e)).or (if c.same e then some c else none) := by
  obtain ⟨d, -, first, kept⟩ | ⟨-, grown⟩ := pool.add_cases c
  · rw [kept]
    split
    · next equal =>
        -- The entry that `c` was found equal to equals `e` too, so the pool has one already.
        have alike : d.same c = true := by simpa using Array.find?_some first
        obtain ⟨other, found⟩ : ∃ other, pool.find? (·.same e) = some other :=
          Option.isSome_iff_exists.mp <| Array.find?_isSome.mpr
            ⟨d, Array.mem_of_find?_eq_some first, Constant.same_trans alike equal⟩
        rw [found, Option.some_or]
    · rw [Option.or_none]
  · have unlike : Constant.empty.same e = false :=
      Bool.eq_false_iff.mpr fun equal => stands (Constant.eq_empty_of_same equal)
    rw [grown]
    split <;> simp [Array.find?_push, unlike]

/-- The first entry that equals a constant is the first constant put in that does. -/
theorem find?_addAll (stands : e ≠ .empty) : ∀ (pool : Pool) (cs : List Constant),
    (pool.addAll cs).1.find? (·.same e) = (pool.find? (·.same e)).or (cs.find? (·.same e))
  | pool, [] => (Option.or_none).symm
  | pool, c :: cs => by
      have rest := find?_addAll stands (pool.add c).1 cs
      rw [find?_add pool c stands, Option.or_assoc] at rest
      rw [addAll, rest, List.find?_cons]
      cases c.same e <;> rfl

theorem find?_blank (stands : e ≠ .empty) : blank.find? (·.same e) = none := by
  have unlike : Constant.empty.same e = false :=
    Bool.eq_false_iff.mpr fun equal => stands (Constant.eq_empty_of_same equal)
  simp [blank, unlike]

/-! ## The constant at its place -/

/-- A constant that is put in stands at its place, unless an earlier entry that equals it is
another one. -/
theorem add_placed (alike : ∀ d, pool.find? (·.same c) = some d → d = c) :
    (pool.add c).1[pool.place c]? = some c := by
  obtain ⟨d, found, first, kept⟩ | ⟨last, grown⟩ := pool.add_cases c
  · rw [kept, found, alike d first]
  · have placed : (pool.push c)[pool.size]? = some c := Array.getElem?_push_size
    rw [last, grown]
    split
    · exact Extends.push _ _ _ _ placed
    · exact placed

/-- The index of a constant is its place in the pool of the constants before it. -/
theorem addAll_index : ∀ (pool : Pool) (cs : List Constant) (k : Nat),
    (pool.addAll cs).2[k]? = cs[k]?.map fun c => ((pool.addAll (cs.take k)).1.place c).toUInt16
  | _, [], _ => rfl
  | pool, c :: _, 0 => congrArg some (pool.add_index c)
  | pool, c :: cs, k + 1 => addAll_index (pool.add c).1 cs k

/-- Putting constants in goes through the pool of the constants before one and of that one. -/
theorem addAll_extends_add : ∀ (pool : Pool) (cs : List Constant) (k : Nat), cs[k]? = some c →
    ((pool.addAll (cs.take k)).1.add c).1.Extends (pool.addAll cs).1
  | _, [], _, listed => nomatch listed
  | pool, _ :: cs, 0, listed => by
      cases listed
      exact addAll_extends (pool.add c).1 cs
  | pool, d :: cs, k + 1, listed => addAll_extends_add (pool.add d).1 cs k listed

theorem place_le_size (pool : Pool) (c : Constant) : pool.place c ≤ pool.size := by
  obtain ⟨d, found, -, -⟩ | ⟨last, -⟩ := pool.add_cases c
  · exact (Array.getElem?_eq_some_iff.mp found).1.le
  · exact last.le

theorem add_size (pool : Pool) (c : Constant) : (pool.add c).1.size ≤ pool.size + 2 := by
  obtain ⟨-, -, -, kept⟩ | ⟨-, grown⟩ := pool.add_cases c
  · simp [kept]
  · rw [grown]
    split <;> simp

theorem addAll_size : ∀ (pool : Pool) (cs : List Constant),
    (pool.addAll cs).1.size ≤ pool.size + 2 * cs.length
  | _, [] => Nat.le_refl _
  | pool, c :: cs => by
      have first := pool.add_size c
      have rest := addAll_size (pool.add c).1 cs
      have longer : (c :: cs).length = cs.length + 1 := rfl
      change ((pool.add c).1.addAll cs).1.size ≤ _
      omega

theorem entry_of_getElem? {index : UInt16} (h : pool[index.toNat]? = some c) :
    pool.entry index = .ok c := by
  unfold entry
  rw [h]

/-- A constant that no entry equals is put at the end. -/
theorem place_of_new (new : ∀ d ∈ pool, d.same c = false) : pool.place c = pool.size := by
  unfold place
  rw [Array.findIdx?_eq_none_iff.mpr new]

/-- Empty entries are never used again. -/
theorem addAll_empties : ∀ m n : Nat,
    (addAll (Array.replicate (m + 1) .empty) (List.replicate n .empty)).1 =
      Array.replicate (m + 1 + n) .empty
  | m, 0 => rfl
  | m, n + 1 => by
      have first : Array.findIdx? (·.same .empty) (Array.replicate (m + 1) Constant.empty) =
          some 0 :=
        Array.findIdx?_eq_some_iff_getElem.mpr ⟨by simp, by simp [Constant.same], nofun⟩
      have next : add (Array.replicate (m + 1) .empty) .empty =
          (Array.replicate (m + 2) .empty, (m + 1).toUInt16) := by
        unfold add
        rw [first]
        simp [Constant.isWide, Array.replicate_succ]
      rw [List.replicate_succ, addAll, next, addAll_empties (m + 1) n]
      congr 1
      omega

end Pool

/-! ## The constants of a class -/

namespace ClassSpec

variable {s : ClassSpec} {c : ClassDecl} {e : Constant} {k : Nat}

/-- The pool when the first constants of a class are in it. -/
def poolBefore (s : ClassSpec) (k : Nat) : Pool := (Pool.blank.addAll (s.constants.take k)).1

/-- The place of a constant is at most twice the number of constants before it, and one more. -/
theorem place_before_le (s : ClassSpec) (k : Nat) (e : Constant) :
    (s.poolBefore k).place e ≤ 2 * k + 1 := by
  have place := (s.poolBefore k).place_le_size e
  have size : (s.poolBefore k).size ≤ 1 + 2 * (s.constants.take k).length :=
    Pool.addAll_size Pool.blank (s.constants.take k)
  have length : (s.constants.take k).length ≤ k := List.length_take_le k s.constants
  omega

theorem build_pool (built : s.build = .ok c) : c.pool = s.numbered.1 := by
  unfold build at built
  cases methods : s.methods.mapM (MethodSpec.build s.name) with
  | error e => simp [methods, bind, Except.bind] at built
  | ok ms =>
      cases fields : s.fields.mapM (FieldSpec.build s.name) with
      | error e => simp [methods, fields, bind, Except.bind] at built
      | ok fs =>
          simp only [methods, fields, bind, Except.bind, pure, Except.pure] at built
          cases built
          rfl

/-- The index of a constant names the constant in the class that was read, and behind a long or a
double stands the empty entry.  The place of the constant must fit into sixteen bits, and the first
zero of its kind before a zero must be the same one and not the zero of the other sign. -/
theorem constant_recalled (built : s.build = .ok c) (given : s.constants[k]? = some e)
    (stands : e ≠ .empty) (narrow : (s.poolBefore k).place e < 65536)
    (alike : e.IsZero → ∀ d, (s.constants.take k).find? (·.same e) = some d → d = e) :
    ∃ index, s.numbered.2[k]? = some index ∧ c.pool.entry index = .ok e ∧
      (e.isWide = true → c.pool[index.toNat + 1]? = some .empty) := by
  have indexed : s.numbered.2[k]? = some ((s.poolBefore k).place e).toUInt16 := by
    rw [numbered, Pool.addAll_index, given]
    rfl
  have whole : ((s.poolBefore k).place e).toUInt16.toNat = (s.poolBefore k).place e :=
    Nat.mod_eq_of_lt narrow
  have first : ∀ d, (s.poolBefore k).find? (·.same e) = some d → d = e := by
    intro d found
    rw [poolBefore, Pool.find?_addAll stands, Pool.find?_blank stands, Option.none_or] at found
    have same : d.same e = true := by simpa using List.find?_some found
    rcases Constant.same_zero same with equal | zero
    · exact equal
    · exact alike zero d found
  have placed : c.pool[((s.poolBefore k).place e).toUInt16.toNat]? = some e := by
    rw [build_pool built, whole]
    exact Pool.addAll_extends_add _ _ _ given _ _ (Pool.add_placed first)
  have spaced : c.pool.Spaced := by
    rw [build_pool built]
    exact Pool.Spaced.addAll Pool.blank_spaced s.constants
  exact ⟨_, indexed, Pool.entry_of_getElem? placed, spaced _ e placed⟩

end ClassSpec

namespace Sample

/-- A class with a number that is used again and a long. -/
def tallies : ClassSpec :=
  { name := "Tallies", constants := [.double 0, .long 5, .int 7, .double 0] }

/-- A class with both zeros. -/
def zeros : ClassSpec := { name := "Zeros", constants := [.double 0, .double (-0)] }

/-- A class with a constant behind some empty ones. -/
def crowded (n : Nat) : ClassSpec :=
  { name := "Crowded", constants := List.replicate n .empty ++ [.int 7] }

theorem crowded_given (n : Nat) : (crowded n).constants[n]? = some (.int 7) := by
  rw [crowded, List.getElem?_append_right List.length_replicate.le, List.length_replicate,
    Nat.sub_self]
  rfl

theorem crowded_built (n : Nat) :
    ∃ c, (crowded n).build = .ok c ∧ c.pool.entry 0 = .ok .empty :=
  ⟨_, rfl, Pool.entry_of_getElem? (Pool.addAll_extends Pool.blank _ 0 .empty rfl)⟩

theorem crowded_index (n : Nat) : (crowded n).numbered.2[n]? = some (n + 1).toUInt16 := by
  have before : (crowded n).poolBefore n = Array.replicate (n + 1) .empty := by
    have taken : (crowded n).constants.take n = List.replicate n .empty :=
      List.take_left' List.length_replicate
    rw [ClassSpec.poolBefore, taken, Nat.add_comm]
    exact Pool.addAll_empties 0 n
  have place : ((crowded n).poolBefore n).place (.int 7) = n + 1 := by
    rw [before, Pool.place_of_new, Array.size_replicate]
    intro d listed
    rw [Array.eq_of_mem_replicate listed]
    rfl
  rw [ClassSpec.numbered, Pool.addAll_index, crowded_given, Option.map_some]
  exact congrArg (fun place : Nat => some place.toUInt16) place

end Sample

theorem ClassSpec.constant_recalled_tallies : ∃ c, Sample.tallies.build = .ok c ∧
    (∃ index, Sample.tallies.numbered.2[1]? = some index ∧ c.pool.entry index = .ok (.long 5) ∧
      c.pool[index.toNat + 1]? = some .empty) ∧
    ∃ index, Sample.tallies.numbered.2[3]? = some index ∧
      c.pool.entry index = .ok (.double 0) := by
  obtain ⟨c, built⟩ : ∃ c, Sample.tallies.build = .ok c := ⟨_, rfl⟩
  have narrow (k : Nat) (e : Constant) (few : k ≤ 3) :
      (Sample.tallies.poolBefore k).place e < 65536 := by
    have bound := Sample.tallies.place_before_le k e
    omega
  refine ⟨c, built, ?_, ?_⟩
  · obtain ⟨index, indexed, found, behind⟩ :=
      constant_recalled (k := 1) (e := .long 5) built rfl nofun (narrow _ _ (by decide)) nofun
    exact ⟨index, indexed, found, behind rfl⟩
  · obtain ⟨index, indexed, found, -⟩ :=
      constant_recalled (k := 3) (e := .double 0) built rfl nofun (narrow _ _ (by decide))
        (by rintro - d ⟨⟩; rfl)
    exact ⟨index, indexed, found⟩

/-- A zero put in behind the zero of the other sign is given its index, and a constant whose place
is one more than sixteen bits hold is given the index of the empty entry at zero. -/
theorem ClassSpec.constant_confused :
    (∃ c, Sample.zeros.build = .ok c ∧ Sample.zeros.numbered.2 = [1, 1] ∧
      c.pool.entry 1 = .ok (.double 0) ∧ Constant.double 0 ≠ .double (-0)) ∧
    ∃ c, (Sample.crowded 65535).build = .ok c ∧
      (Sample.crowded 65535).constants[65535]? = some (.int 7) ∧
      (Sample.crowded 65535).numbered.2[65535]? = some 0 ∧ c.pool.entry 0 = .ok .empty := by
  refine ⟨⟨_, rfl, by decide +kernel, ?_, ?_⟩, ?_⟩
  · have placed : (Pool.blank.add (.double 0)).1[Pool.blank.place (.double 0)]? = _ :=
      Pool.add_placed nofun
    have first : Pool.blank.place (.double 0) = 1 := by decide +kernel
    rw [first] at placed
    exact Pool.entry_of_getElem? (Pool.addAll_extends _ [.double (-0)] 1 _ placed)
  · intro equal
    exact absurd (Constant.double.inj equal) (by decide)
  · obtain ⟨c, built, first⟩ := Sample.crowded_built 65535
    exact ⟨c, built, Sample.crowded_given 65535, Sample.crowded_index 65535, first⟩

end JavaMachine
