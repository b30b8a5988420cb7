import JavaMachine.Proofs.Overriding

/-!
# The order of ancestors

Which classes are the ancestors of a class is the question that catching an exception, a cast and a
call through an interface ask.  The walk that answers it decides reachability along the parents of
classes, and a name that stands for no class is reached like any other.

*Order.*  Whatever the library is, the ancestors of an ancestor are ancestors.  In a library in
which no class is above itself two classes are not ancestors of each other.

*Growth.*  A class that is registered under a new name leaves the parents of all other names as they
are, so what was reached before is reached after.

*Depth.*  Where no class is above itself, a step up leaves a registered ancestor behind for good, so
their number bounds every way up.  A walk with that budget does not see it: a field is searched for
as if there were none.
-/

namespace JavaMachine

open Relation (ReflTransGen)

namespace Library

variable {lib : Library} {a s t : String} {decl : ClassDecl} {c : LoadedClass}

/-! ## Order -/

/-- Two classes that are ancestors of each other are one. -/
theorem Acyclic.antisymm (acyclic : lib.Acyclic) (up : lib.Ancestor s t)
    (back : lib.Ancestor t s) : s = t := by
  obtain same | ⟨next, first, rest⟩ := up.cases_head
  · exact same
  · exact absurd (ReflTransGen.trans rest back) (acyclic s next first)

/-! ## Growth -/

/-- A class under a new name hides no other one. -/
theorem find?_register (new : lib.find? decl.name = none) (found : lib.find? s = some c) :
    (lib.register decl).1.find? s = some c := by
  have other : decl.name ≠ s := by
    rintro rfl
    exact nomatch new.symm.trans found
  have passed : (lib.register decl).1.find? s = lib.find? s :=
    List.find?_cons_of_neg (by simpa using other)
  exact passed.trans found

theorem Parent.register (new : lib.find? decl.name = none) (up : lib.Parent s t) :
    (lib.register decl).1.Parent s t := by
  obtain ⟨c, found, above⟩ := up
  exact ⟨c, find?_register new found, above⟩

theorem Ancestor.register (new : lib.find? decl.name = none) (way : lib.Ancestor s t) :
    (lib.register decl).1.Ancestor s t :=
  ReflTransGen.mono (fun _ _ => Parent.register new) _ _ way

/-! ## Depth -/

/-- The ancestors of a class that are registered, the class itself among them. -/
def ancestors (lib : Library) (name : String) : Finset String :=
  lib.names.filter fun a => lib.isSubclass name a = true

theorem mem_ancestors : a ∈ lib.ancestors s ↔ a ∈ lib.names ∧ lib.Ancestor s a := by
  rw [ancestors, Finset.mem_filter, isSubclass_iff_ancestor]

theorem mem_ancestors_self (found : lib.find? s = some c) : s ∈ lib.ancestors s :=
  mem_ancestors.mpr ⟨mem_names_of_find? found, .refl⟩

theorem card_ancestors_le (lib : Library) (name : String) :
    (lib.ancestors name).card ≤ lib.budget :=
  (Finset.card_filter_le _ _).trans lib.card_names_le

/-- A parent has fewer ancestors. -/
theorem Acyclic.card_ancestors_lt (acyclic : lib.Acyclic) (up : lib.Parent s t) :
    (lib.ancestors t).card < (lib.ancestors s).card := by
  obtain ⟨c, found⟩ := Parent.found s t up
  have fewer : lib.ancestors t ⊆ lib.ancestors s := fun a above =>
    mem_ancestors.mpr ((mem_ancestors.mp above).imp_right (.head up))
  refine Finset.card_lt_card ((Finset.ssubset_iff_of_subset fewer).mpr
    ⟨s, mem_ancestors_self found, fun back => ?_⟩)
  exact acyclic s t up (mem_ancestors.mp back).2

/-- The walk for a field does not see its budget when the budget reaches as far up as the class has
ancestors. -/
theorem Acyclic.findFieldWithin_succ (acyclic : lib.Acyclic) (name : String) :
    ∀ {n : Nat} {s : String}, (lib.ancestors s).card ≤ n →
      lib.findFieldWithin n s name = lib.findFieldWithin (n + 1) s name := by
  intro n
  induction n with
  | zero =>
      intro s spent
      -- a class that is registered is among its own ancestors
      have unknown : lib.find? s = none := by
        refine Option.eq_none_iff_forall_not_mem.mpr fun c found => ?_
        have own := mem_ancestors_self found
        rw [Finset.card_eq_zero.mp (Nat.le_zero.mp spent)] at own
        exact Finset.notMem_empty s own
      rw [findFieldWithin, findFieldWithin, unknown]
      rfl
  | succ n ih =>
      intro s enough
      have above {t : String} (up : lib.Parent s t) :
          lib.findFieldWithin n t name = lib.findFieldWithin (n + 1) t name :=
        ih (Nat.lt_succ_iff.mp ((acyclic.card_ancestors_lt up).trans_le enough))
      rw [findFieldWithin, findFieldWithin]
      cases found : lib.find? s with
      | none => rfl
      | some c =>
          have between : c.interfaces.findSome? (lib.findFieldWithin n · name) =
              c.interfaces.findSome? (lib.findFieldWithin (n + 1) · name) := by
            have each : c.interfaces.map (lib.findFieldWithin n · name) =
                c.interfaces.map (lib.findFieldWithin (n + 1) · name) :=
              List.map_congr_left fun i listed => above ⟨c, found, .inl listed⟩
            simpa [List.findSome?_map, Function.comp_def] using congrArg (List.findSome? id) each
          have super : c.superName.bind (lib.findFieldWithin n · name) =
              c.superName.bind (lib.findFieldWithin (n + 1) · name) :=
            Option.bind_congr fun t named => above ⟨c, found, .inr named⟩
          simp only [Option.bind_eq_bind, Option.bind_some, between, super]

/-- Where no class is above itself, a field is searched for in the class, then in each of its
interfaces with all that is above it, and then in the superclass with all that is above it. -/
theorem Acyclic.findField_eq (acyclic : lib.Acyclic) (className name : String) :
    lib.findField className name = (lib.find? className).bind fun c =>
      (c.field? name).or <| (c.interfaces.findSome? (lib.findField · name)).or <|
        c.superName.bind (lib.findField · name) := by
  have once := acyclic.findFieldWithin_succ name (lib.card_ancestors_le className)
  rw [findField, once, findFieldWithin]
  cases lib.find? className with
  | none => rfl
  | some c => simp only [Option.bind_eq_bind, Option.bind_some, Option.orElse_eq_orElse,
      Option.orElse_eq_or]; rfl

/-! ## Reachability -/

/-- The question whether a class is below another one is reachability.  It is answered with yes
exactly when the second name is reached from the first one by steps from registered classes to their
superclass or to one of their interfaces, be there a class of that name or not.  So the answers are
a partial order on names, and a class that is registered under a new name takes no yes back. -/
theorem isSubclass_reaches (acyclic : lib.Acyclic) :
    (∀ d a, lib.isSubclass d a = true ↔ lib.Ancestor d a) ∧
    (∀ d, lib.isSubclass d d = true) ∧
    (∀ d e a, lib.isSubclass d e = true → lib.isSubclass e a = true →
      lib.isSubclass d a = true) ∧
    (∀ d a, lib.isSubclass d a = true → lib.isSubclass a d = true → d = a) ∧
    ∀ decl : ClassDecl, lib.find? decl.name = none → (lib.register decl).1.Acyclic →
      ∀ d a, lib.isSubclass d a = true → (lib.register decl).1.isSubclass d a = true := by
  refine ⟨lib.isSubclass_iff_ancestor, ?_⟩
  simp only [isSubclass_iff_ancestor]
  exact ⟨fun _ => .refl, fun _ _ _ => ReflTransGen.trans, fun _ _ => acyclic.antisymm,
    fun _ new _ _ _ => Ancestor.register new⟩

end Library

namespace Sample

/-- A class below an interface in three ways, and below a class whose superclass is missing. -/
def knot : Library :=
  ⟨[{ tier "D" "B" [] 4 with interfaces := ["I", "J"] },
    { tier "J" objectName [] 3 with interfaces := ["I"] },
    { tier "B" "Gone" [] 2 with interfaces := ["I"] }, tier "I" objectName [] 1,
    { tier objectName "" [] 0 with superName := none }]⟩

theorem knot_acyclic : knot.Acyclic :=
  Library.acyclic_of_rank (floor ["I", "Gone", "B", "J", "D"]) (by decide)

/-- The missing class. -/
def gone : ClassDecl := (tier "Gone" objectName [] 5).toClassDecl

end Sample

namespace Library

/-- The missing superclass is an ancestor before it is registered and after that.  The interface
that is reached in three ways is an ancestor, and a class in between is none of another one. -/
theorem isSubclass_reaches_knot :
    let lib := Sample.knot
    let later := (lib.register Sample.gone).1
    lib.Acyclic ∧ lib.Ancestor "D" "Gone" ∧ lib.find? "Gone" = none ∧ later.Acyclic ∧
      lib.isSubclass "D" "Gone" = true ∧ later.isSubclass "D" "Gone" = true ∧
      lib.isSubclass "D" "I" = true ∧ ¬ lib.Ancestor "J" "B" := by
  intro lib later
  have way : lib.Ancestor "D" "Gone" :=
    .head ⟨_, rfl, .inr rfl⟩ (.single ⟨_, rfl, .inr rfl⟩)
  have acyclic : later.Acyclic :=
    acyclic_of_rank (Sample.floor ["I", "Gone", "B", "J", "D"]) (by decide)
  obtain ⟨reach, -, trans, -, grow⟩ := isSubclass_reaches Sample.knot_acyclic
  have yes := (reach "D" "Gone").mpr way
  refine ⟨Sample.knot_acyclic, way, rfl, acyclic, yes, grow Sample.gone rfl acyclic _ _ yes,
    trans "D" "J" "I" (by decide) (by decide), fun up => ?_⟩
  exact absurd ((reach "J" "B").mpr up) (by decide)

end Library

end JavaMachine
