import JavaMachine.Library
import Mathlib.Data.Finset.Card
import Mathlib.Logic.Relation

/-!
# Ancestors

A class is below its superclass and its superinterfaces, and the ancestors of a class are what is
reached from it by going up.  The library decides this by a walk whose budget is the number of
registered classes.  The budget is enough for every library, also for one in which a class is its
own ancestor: a way up that is as short as possible leaves no class twice, and every class that it
leaves is registered.

The argument is about any relation that leaves only the elements of a finite set.  It takes the
element that a way begins with out of that set, since the way can be chosen so that it never comes
back there.
-/

namespace JavaMachine

open Relation (ReflTransGen)

/-! ## Ways that never come back -/

/-- Reached in at most so many steps. -/
inductive Within {α : Type} (step : α → α → Prop) : Nat → α → α → Prop
  /-- No step is needed. -/
  | here {n : Nat} {a : α} : Within step n a a
  /-- One step, and then the rest. -/
  | up {n : Nat} {a b c : α} : step a b → Within step n b c → Within step (n + 1) a c

namespace Within

variable {α : Type} {step : α → α → Prop} {a b c : α}

theorem mono {m n : Nat} (within : Within step m a b) (le : m ≤ n) : Within step n a b := by
  induction within generalizing n with
  | here => exact .here
  | up first _ ih =>
      obtain ⟨n, rfl⟩ := Nat.exists_eq_add_of_lt le
      exact .up first (ih (by omega))

variable [DecidableEq α]

/-- A way to another element can be taken so that it never comes back to where it began. -/
theorem exists_step {S : Finset α} (way : ReflTransGen (fun x y => x ∈ S ∧ step x y) a b)
    (distinct : a ≠ b) :
    ∃ next, a ∈ S ∧ step a next ∧
      ReflTransGen (fun x y => x ∈ S.erase a ∧ step x y) next b := by
  -- the last visit to the beginning is looked for from the end of the way
  suffices h : ∀ x, ReflTransGen (fun x y => x ∈ S ∧ step x y) x b →
      ReflTransGen (fun x y => x ∈ S.erase a ∧ step x y) x b ∨
      ∃ next, a ∈ S ∧ step a next ∧
        ReflTransGen (fun x y => x ∈ S.erase a ∧ step x y) next b by
    obtain avoiding | found := h a way
    · obtain same | ⟨next, ⟨left, -⟩, -⟩ := avoiding.cases_head
      · exact absurd same distinct
      · exact absurd left (Finset.notMem_erase a S)
    · exact found
  intro x hx
  induction hx using ReflTransGen.head_induction_on with
  | refl => exact .inl .refl
  | @head y next first _ ih =>
      obtain avoiding | found := ih
      · by_cases back : y = a
        · subst back
          exact .inr ⟨next, first.1, first.2, avoiding⟩
        · exact .inl (.head ⟨Finset.mem_erase.mpr ⟨back, first.1⟩, first.2⟩ avoiding)
      · exact .inr found

/-- A relation that leaves only the elements of a finite set reaches what it does in as many steps
as the set has other elements. -/
theorem of_reflTransGen {S : Finset α} (left : ∀ x y, step x y → x ∈ S)
    (way : ReflTransGen step a b) : Within step (S.erase b).card a b := by
  suffices h : ∀ n (T : Finset α) x, (T.erase b).card = n →
      ReflTransGen (fun x y => x ∈ T ∧ step x y) x b → Within step n x b from
    h _ S a rfl (ReflTransGen.mono (fun x y first => ⟨left x y first, first⟩) _ _ way)
  intro n
  induction n with
  | zero =>
      intro T x none way
      by_cases same : x = b
      · exact same ▸ .here
      · obtain ⟨next, listed, -, -⟩ := exists_step way same
        have mem : x ∈ T.erase b := Finset.mem_erase.mpr ⟨same, listed⟩
        rw [Finset.card_eq_zero.mp none] at mem
        exact absurd mem (Finset.notMem_empty x)
  | succ n ih =>
      intro T x size way
      by_cases same : x = b
      · exact same ▸ .here
      · obtain ⟨next, listed, first, rest⟩ := exists_step way same
        have mem : x ∈ T.erase b := Finset.mem_erase.mpr ⟨same, listed⟩
        have fewer : ((T.erase x).erase b).card = n := by
          rw [Finset.erase_right_comm, Finset.card_erase_of_mem mem, size, Nat.add_sub_cancel]
        exact .up first (ih (T.erase x) next fewer rest)

end Within

namespace Library

/-- The second name is that of the superclass or of a superinterface of the class of the first. -/
def Parent (lib : Library) (derived ancestor : String) : Prop :=
  ∃ c, lib.find? derived = some c ∧ (ancestor ∈ c.interfaces ∨ c.superName = some ancestor)

/-- The second name is the first one or that of a class above it. -/
def Ancestor (lib : Library) (derived ancestor : String) : Prop :=
  ReflTransGen lib.Parent derived ancestor

/-- The names of the registered classes. -/
def names (lib : Library) : Finset String := (lib.classes.map (·.name)).toFinset

theorem mem_names_of_find? {lib : Library} {name : String} {c : LoadedClass}
    (h : lib.find? name = some c) : name ∈ lib.names := by
  have found : (c.name == name) = true :=
    List.find?_some (p := fun d : LoadedClass => d.name == name) h
  have listed : c ∈ lib.classes := List.mem_of_find?_eq_some h
  rw [names, List.mem_toFinset, List.mem_map]
  exact ⟨c, listed, eq_of_beq found⟩

theorem card_names_le (lib : Library) : lib.names.card ≤ lib.budget := by
  have h := List.toFinset_card_le (lib.classes.map (·.name))
  rwa [List.length_map] at h

section Budget

variable {lib : Library} {step : String → String → Prop} {derived ancestor : String}
  (left : ∀ x y, step x y → ∃ c, lib.find? x = some c) (way : ReflTransGen step derived ancestor)

include left way

/-- Going up from registered classes leaves each of their names once. -/
theorem within_names : Within step (lib.names.erase ancestor).card derived ancestor := by
  refine Within.of_reflTransGen (fun x y first => ?_) way
  obtain ⟨c, found⟩ := left x y first
  exact mem_names_of_find? found

/-- Going up from registered classes takes no more steps than the budget of a walk. -/
theorem within_budget : Within step lib.budget derived ancestor :=
  (within_names left way).mono (Finset.card_erase_le.trans lib.card_names_le)

/-- To a class that is registered itself it takes one step fewer. -/
theorem exists_within_of_found {c : LoadedClass} (found : lib.find? ancestor = some c) :
    ∃ n, lib.budget = n + 1 ∧ Within step n derived ancestor := by
  have listed := mem_names_of_find? found
  have positive : 0 < lib.budget :=
    (Finset.card_pos.mpr ⟨ancestor, listed⟩).trans_le lib.card_names_le
  refine ⟨lib.budget - 1, (Nat.sub_add_cancel positive).symm, (within_names left way).mono ?_⟩
  rw [Finset.card_erase_of_mem listed]
  exact Nat.sub_le_sub_right lib.card_names_le 1

end Budget

/-! ## The walk of the library -/

theorem isSubclassWithin_succ {lib : Library} {n : Nat} {derived next ancestor : String}
    (step : lib.Parent derived next) (h : lib.isSubclassWithin n next ancestor = true) :
    lib.isSubclassWithin (n + 1) derived ancestor = true := by
  obtain ⟨c, found, above⟩ := step
  simp only [isSubclassWithin, found]
  obtain listed | named := above
  · have any : c.interfaces.any (lib.isSubclassWithin n · ancestor) = true :=
      List.any_eq_true.mpr ⟨next, listed, h⟩
    rw [any, Bool.true_or, Bool.or_true]
  · rw [named]
    simp only [h, Bool.or_true]

/-- What a walk finds is an ancestor. -/
theorem ancestor_of_isSubclassWithin {lib : Library} {ancestor : String} :
    ∀ {n : Nat} {derived : String}, lib.isSubclassWithin n derived ancestor = true →
      lib.Ancestor derived ancestor := by
  intro n
  induction n with
  | zero =>
      intro derived h
      rw [eq_of_beq h]
      exact .refl
  | succ n ih =>
      intro derived h
      simp only [isSubclassWithin, Bool.or_eq_true] at h
      obtain same | up := h
      · rw [eq_of_beq same]
        exact .refl
      · cases found : lib.find? derived with
        | none => rw [found] at up; cases up
        | some c =>
            rw [found] at up
            simp only [Bool.or_eq_true] at up
            obtain listed | named := up
            · obtain ⟨next, mem, reached⟩ := List.any_eq_true.mp listed
              exact .head ⟨c, found, .inl mem⟩ (ih reached)
            · cases super : c.superName with
              | none => rw [super] at named; cases named
              | some next =>
                  rw [super] at named
                  exact .head ⟨c, found, .inr super⟩ (ih named)

/-- A way up is found within its length. -/
theorem isSubclassWithin_of_within {lib : Library} {n : Nat} {derived ancestor : String}
    (within : Within lib.Parent n derived ancestor) :
    lib.isSubclassWithin n derived ancestor = true := by
  induction within with
  | @here n a => cases n <;> simp only [isSubclassWithin, beq_self_eq_true, Bool.true_or]
  | up first _ ih => exact isSubclassWithin_succ first ih

theorem Parent.found {lib : Library} (x y : String) (h : lib.Parent x y) :
    ∃ c, lib.find? x = some c := by
  obtain ⟨c, found, -⟩ := h
  exact ⟨c, found⟩

/-- The library decides which classes are the ancestors of a class. -/
theorem isSubclass_iff_ancestor (lib : Library) (derived ancestor : String) :
    lib.isSubclass derived ancestor = true ↔ lib.Ancestor derived ancestor :=
  ⟨ancestor_of_isSubclassWithin, fun way =>
    isSubclassWithin_of_within (within_budget Parent.found way)⟩

end Library

end JavaMachine
