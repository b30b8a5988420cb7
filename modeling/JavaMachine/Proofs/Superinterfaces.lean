import JavaMachine.Proofs.Stirring
import JavaMachine.Proofs.Unwinding

/-!
# Default methods

A call on an object runs the nearest instance method on the superclass chain of its class, and when
there is none, a method of a superinterface.  The superinterfaces are searched in a fixed order: a
direct superinterface, what stands above it, the next one, and at last the superinterfaces of the
superclass.  The search stops at the first of them that declares the method in any way, and only
then asks whether this declaration has an implementation.

So the order decides.  A default method is missed when an interface before it only declares the
method, and a less specific one is taken when an interface stands before another that extends it.
Where the order does neither, every default method is found and the most specific one is taken.
-/

namespace JavaMachine

open Relation (ReflTransGen)

/-! ## The first of a list that has something -/

theorem findSome?_flatMap {α β γ : Type} (f : β → Option γ) (g : α → List β) :
    ∀ as : List α, (as.flatMap g).findSome? f = as.findSome? fun a => (g a).findSome? f
  | [] => rfl
  | a :: as => by
      rw [List.flatMap_cons, List.findSome?_append, findSome?_flatMap f g as, List.findSome?_cons]
      cases (g a).findSome? f <;> rfl

theorem findSome?_toList {α β : Type} (f : α → Option β) (o : Option α) :
    o.toList.findSome? f = o.bind f := by
  cases o with
  | none => rfl
  | some a => exact List.findSome?_singleton

namespace Library

variable {lib : Library} {c d i j : LoadedClass} {m m' : MethodDecl} {n : Nat}
  {className name descriptor s t : String}

/-! ## Superclasses -/

/-- The second name is that of the superclass of the class of the first. -/
def Extends (lib : Library) (derived super : String) : Prop :=
  ∃ c, lib.find? derived = some c ∧ c.superName = some super

/-- The second name is the first one or that of a superclass, direct or not. -/
def Superclass (lib : Library) (derived super : String) : Prop :=
  ReflTransGen lib.Extends derived super

theorem Extends.found (s t : String) (h : lib.Extends s t) : ∃ c, lib.find? s = some c := by
  obtain ⟨c, found, -⟩ := h
  exact ⟨c, found⟩

theorem superclass_of_mem_chainWithin : ∀ {n : Nat} {s : String}, d ∈ lib.chainWithin n s →
    ∃ t, lib.Superclass s t ∧ lib.find? t = some d
  | 0, _, listed => nomatch listed
  | n + 1, s, listed => by
      unfold chainWithin at listed
      split at listed
      · cases listed
      · next c found =>
          rcases List.mem_cons.mp listed with rfl | above
          · exact ⟨s, .refl, found⟩
          · split at above
            · cases above
            · next super named =>
                obtain ⟨t, way, foundAbove⟩ := superclass_of_mem_chainWithin above
                exact ⟨t, .head ⟨c, found, named⟩ way, foundAbove⟩

theorem mem_chainWithin_of_within (within : Within lib.Extends n s t)
    (found : lib.find? t = some d) : d ∈ lib.chainWithin (n + 1) s := by
  induction within with
  | here =>
      unfold chainWithin
      rw [found]
      exact List.mem_cons_self
  | up first _ ih =>
      obtain ⟨c, known, named⟩ := first
      unfold chainWithin
      simp only [known, named]
      exact List.mem_cons_of_mem c (ih found)

/-- The chain of a name holds its class and all superclasses. -/
theorem mem_chain : d ∈ lib.chain s ↔ ∃ t, lib.Superclass s t ∧ lib.find? t = some d := by
  constructor
  · exact superclass_of_mem_chainWithin
  · rintro ⟨t, way, found⟩
    obtain ⟨n, enough, within⟩ := exists_within_of_found Extends.found way found
    rw [chain, enough]
    exact mem_chainWithin_of_within within found

theorem mem_lineage (known : lib.find? c.name = some c) :
    d ∈ lib.lineage c ↔ ∃ t, lib.Superclass c.name t ∧ lib.find? t = some d := by
  have up (s : String) (way : lib.Superclass c.name s) :
      s = c.name ∨ ∃ super, c.superName = some super ∧ lib.Superclass super s := by
    obtain same | ⟨super, ⟨b, found, named⟩, rest⟩ := way.cases_head
    · exact .inl same.symm
    · obtain rfl : c = b := Option.some.inj (known.symm.trans found)
      exact .inr ⟨super, named, rest⟩
  rw [lineage, List.mem_cons, above]
  constructor
  · rintro (rfl | listed)
    · exact ⟨d.name, .refl, known⟩
    · split at listed
      · cases listed
      · next super named =>
          obtain ⟨t, way, found⟩ := mem_chain.mp listed
          exact ⟨t, .head ⟨c, known, named⟩ way, found⟩
  · rintro ⟨t, way, found⟩
    obtain rfl | ⟨super, named, rest⟩ := up t way
    · exact .inl (Option.some.inj (found.symm.trans known))
    · rw [named]
      exact .inr (mem_chain.mpr ⟨t, rest, found⟩)

/-! ## Superinterfaces -/

/-- The second name is that of a superinterface of the class of the first: a direct one, one that a
superclass has, or one that another superinterface extends. -/
def Superinterface (lib : Library) (derived interface : String) : Prop :=
  ∃ heir c, lib.Ancestor derived heir ∧ lib.find? heir = some c ∧ interface ∈ c.interfaces

/-- The superinterfaces of a class in the order in which they are searched, within a budget. -/
def superinterfacesWithin (lib : Library) : Nat → String → List LoadedClass
  | 0, _ => []
  | n + 1, className =>
      match lib.find? className with
      | none => []
      | some c =>
          c.interfaces.flatMap (fun i => (lib.find? i).toList ++ superinterfacesWithin lib n i) ++
            match c.superName with
            | none => []
            | some s => superinterfacesWithin lib n s

/-- The superinterfaces of a class in the order in which they are searched. -/
def superinterfaces (lib : Library) (className : String) : List LoadedClass :=
  lib.superinterfacesWithin lib.budget className

theorem superinterface_of_mem_within : ∀ {n : Nat} {s : String},
    i ∈ lib.superinterfacesWithin n s → ∃ t, lib.Superinterface s t ∧ lib.find? t = some i
  | 0, _, listed => nomatch listed
  | n + 1, s, listed => by
      unfold superinterfacesWithin at listed
      split at listed
      · cases listed
      · next c found =>
          rcases List.mem_append.mp listed with direct | inherited
          · obtain ⟨next, declared, listed⟩ := List.mem_flatMap.mp direct
            rcases List.mem_append.mp listed with own | above
            · exact ⟨next, ⟨s, c, .refl, found, declared⟩, Option.mem_toList.mp own⟩
            · obtain ⟨t, ⟨heir, e, way, looked⟩, foundAbove⟩ := superinterface_of_mem_within above
              exact ⟨t, ⟨heir, e, .head ⟨c, found, .inl declared⟩ way, looked⟩, foundAbove⟩
          · split at inherited
            · cases inherited
            · next super named =>
                obtain ⟨t, ⟨heir, e, way, looked⟩, foundAbove⟩ :=
                  superinterface_of_mem_within inherited
                exact ⟨t, ⟨heir, e, .head ⟨c, found, .inr named⟩ way, looked⟩, foundAbove⟩

theorem mem_superinterfacesWithin (within : Within lib.Parent n s t) (found : lib.find? t = some c)
    (declared : className ∈ c.interfaces) (known : lib.find? className = some i) :
    i ∈ lib.superinterfacesWithin (n + 1) s := by
  induction within with
  | here =>
      unfold superinterfacesWithin
      rw [found]
      refine List.mem_append_left _ (List.mem_flatMap.mpr ⟨className, declared, ?_⟩)
      exact List.mem_append_left _ (Option.mem_toList.mpr known)
  | up first _ ih =>
      obtain ⟨e, looked, listed | named⟩ := first
      · unfold superinterfacesWithin
        rw [looked]
        refine List.mem_append_left _ (List.mem_flatMap.mpr ⟨_, listed, ?_⟩)
        exact List.mem_append_right _ (ih found)
      · unfold superinterfacesWithin
        simp only [looked, named]
        exact List.mem_append_right _ (ih found)

/-- The search order holds all superinterfaces. -/
theorem mem_superinterfaces :
    i ∈ lib.superinterfaces s ↔ ∃ t, lib.Superinterface s t ∧ lib.find? t = some i := by
  constructor
  · exact superinterface_of_mem_within
  · rintro ⟨t, ⟨heir, c, way, found, declared⟩, known⟩
    obtain ⟨n, enough, within⟩ := exists_within_of_found Parent.found way found
    rw [superinterfaces, enough]
    exact mem_superinterfacesWithin within found declared known

/-! ## The search -/

/-- What the search answers is the first declaration in its order. -/
theorem interfaceMethodWithin_eq : ∀ (n : Nat) (s : String),
    lib.interfaceMethodWithin n s name descriptor =
      (lib.superinterfacesWithin n s).findSome? (·.method? name descriptor)
  | 0, _ => rfl
  | n + 1, s => by
      unfold interfaceMethodWithin superinterfacesWithin
      cases found : lib.find? s with
      | none => rfl
      | some c =>
          have direct (k : String) :
              ((lib.find? k).toList ++ lib.superinterfacesWithin n k).findSome?
                  (·.method? name descriptor) =
                (((lib.find? k).bind (·.method? name descriptor)).or
                  (lib.interfaceMethodWithin n k name descriptor)) := by
            rw [List.findSome?_append, findSome?_toList, interfaceMethodWithin_eq n k]
          simp only [Option.bind_eq_bind, Option.bind_some, List.findSome?_append,
            findSome?_flatMap, direct, Option.orElse_eq_orElse, Option.orElse_eq_or]
          cases c.superName with
          | none => rfl
          | some super => rw [Option.bind_some, interfaceMethodWithin_eq n super]

theorem interfaceMethod_eq : lib.interfaceMethod s name descriptor =
    (lib.superinterfaces s).findSome? (·.method? name descriptor) :=
  interfaceMethodWithin_eq lib.budget s

/-! ## Which declaration comes first -/

/-- The class of a name declares a method of a name and descriptor. -/
def Offers (lib : Library) (className name descriptor : String) (m : MethodDecl) : Prop :=
  ∃ c, lib.find? className = some c ∧ c.method? name descriptor = some m

/-- Of two superinterfaces that declare a method, the one that is searched first does not merely
declare what the other one has a default for, and it is not extended by the other one when that one
has a body for the method. -/
def DefaultsFirst (lib : Library) (className name descriptor : String) : Prop :=
  (lib.superinterfaces className).Pairwise fun i j => ∀ m m',
    i.method? name descriptor = some m → j.method? name descriptor = some m' →
      m'.flags.isAbstract = false →
        (m'.flags.isStatic = false → m.flags.isAbstract = false) ∧
          (lib.Ancestor j.name i.name → j.name = i.name)

/-- Nothing is declared, or one superinterface answers the search and stands before all others that
declare the method. -/
theorem interfaceMethod_first (order : lib.DefaultsFirst s name descriptor) :
    (lib.interfaceMethod s name descriptor = none ∧
      ∀ t m, lib.Superinterface s t → ¬ lib.Offers t name descriptor m) ∨
    ∃ m t, lib.interfaceMethod s name descriptor = some m ∧ lib.Superinterface s t ∧
      lib.Offers t name descriptor m ∧
        ∀ t' m', lib.Superinterface s t' → lib.Offers t' name descriptor m' →
          m'.flags.isAbstract = false →
            (m'.flags.isStatic = false → m.flags.isAbstract = false) ∧
              (lib.Ancestor t' t → t' = t) := by
  rw [interfaceMethod_eq]
  cases answer : (lib.superinterfaces s).findSome? (·.method? name descriptor) with
  | none =>
      refine .inl ⟨rfl, ?_⟩
      rintro t m above ⟨i, found, declared⟩
      have listed := mem_superinterfaces.mpr ⟨t, above, found⟩
      rw [List.findSome?_eq_none_iff.mp answer i listed] at declared
      cases declared
  | some m =>
      obtain ⟨before, i, after, split, own, none⟩ := List.findSome?_eq_some_iff.mp answer
      have placed : i ∈ lib.superinterfaces s := split ▸ List.mem_append_cons_self
      obtain ⟨t, above, found⟩ := mem_superinterfaces.mp placed
      refine .inr ⟨m, t, rfl, above, ⟨i, found, own⟩, ?_⟩
      rintro t' m' above' ⟨j, found', declared⟩ body
      have listed := mem_superinterfaces.mpr ⟨t', above', found'⟩
      rw [split, List.mem_append, List.mem_cons] at listed
      rcases listed with earlier | rfl | later
      · rw [none j earlier] at declared
        cases declared
      · obtain rfl : m = m' := Option.some.inj (own.symm.trans declared)
        exact ⟨fun _ => body, fun _ => (name_of_find? found').symm.trans (name_of_find? found)⟩
      · rw [DefaultsFirst, split] at order
        have behind := (List.pairwise_cons.mp (List.pairwise_append.mp order).2.1).1 j later
        have apart := behind m m' own declared body
        rw [name_of_find? found, name_of_find? found'] at apart
        exact apart

/-- The superclass chain has no instance method of a name and descriptor, or it answers with one. -/
theorem lineage_first (known : lib.find? c.name = some c) :
    ((lib.lineage c).findSome?
        (fun d => (d.method? name descriptor).filter (!·.flags.isStatic)) = none ∧
      ∀ s m, lib.Superclass c.name s → lib.Offers s name descriptor m →
        m.flags.isStatic = true) ∨
    ∃ m s, (lib.lineage c).findSome?
        (fun d => (d.method? name descriptor).filter (!·.flags.isStatic)) = some m ∧
      lib.Superclass c.name s ∧ lib.Offers s name descriptor m ∧ m.flags.isStatic = false := by
  cases answer : (lib.lineage c).findSome?
      fun d => (d.method? name descriptor).filter (!·.flags.isStatic) with
  | none =>
      refine .inl ⟨rfl, ?_⟩
      rintro s m way ⟨d, found, declared⟩
      have listed := (mem_lineage known).mpr ⟨s, way, found⟩
      have skipped := List.findSome?_eq_none_iff.mp answer d listed
      simpa using Option.filter_eq_none_iff.mp skipped m declared
  | some m =>
      obtain ⟨d, listed, own⟩ := List.exists_of_findSome?_eq_some answer
      obtain ⟨s, way, found⟩ := (mem_lineage known).mp listed
      obtain ⟨declared, belongs⟩ := Option.filter_eq_some_iff.mp own
      exact .inr ⟨m, s, rfl, way, ⟨d, found, declared⟩, by simpa using belongs⟩

/-- Every default method is found.  For a class of any library and a method by name and descriptor,
let no superinterface that is searched before another hide what that one implements.  When a call
finds nothing, then no class on the superclass chain declares an instance method of that name and
descriptor, and no superinterface a default method.  When it finds something, this is an instance
method of the superclass chain, or there is none there and it is implemented by a superinterface
that no other superinterface with a body for the method extends. -/
theorem findVirtual_complete (known : lib.find? c.name = some c)
    (order : lib.DefaultsFirst c.name name descriptor) :
    match lib.findVirtual c name descriptor with
    | none =>
        (∀ s m, lib.Superclass c.name s → lib.Offers s name descriptor m →
          m.flags.isStatic = true) ∧
        ∀ t m, lib.Superinterface c.name t → lib.Offers t name descriptor m →
          m.flags.isStatic = true ∨ m.flags.isAbstract = true
    | some m =>
        (∃ s, lib.Superclass c.name s ∧ lib.Offers s name descriptor m ∧
          m.flags.isStatic = false) ∨
        (∀ s m, lib.Superclass c.name s → lib.Offers s name descriptor m →
          m.flags.isStatic = true) ∧
        ∃ t, lib.Superinterface c.name t ∧ lib.Offers t name descriptor m ∧
          m.flags.isAbstract = false ∧
          ∀ t' m', lib.Superinterface c.name t' → t' ≠ t → lib.Ancestor t' t →
            lib.Offers t' name descriptor m' → m'.flags.isAbstract = true := by
  rw [findVirtual, Option.orElse_eq_orElse, Option.orElse_eq_or]
  obtain ⟨none, static⟩ | ⟨m, s, answer, way, offered, own⟩ := lineage_first known
  · rw [none, Option.none_or]
    obtain ⟨answer, silent⟩ | ⟨m, t, answer, above, offered, ahead⟩ := interfaceMethod_first order
    · rw [answer]
      exact ⟨static, fun t m above offered => absurd offered (silent t m above)⟩
    · rw [answer]
      cases body : m.flags.isAbstract with
      | false =>
          rw [Option.filter_some_pos (by rw [body]; rfl)]
          refine .inr ⟨static, t, above, offered, body, fun t' m' above' other way offered' => ?_⟩
          by_contra implemented
          have apart := ahead t' m' above' offered' (Bool.eq_false_iff.mpr implemented)
          exact other (apart.2 way)
      | true =>
          rw [Option.filter_some_neg (by rw [body]; decide)]
          refine ⟨static, fun t' m' above' offered' => ?_⟩
          by_contra default
          rw [not_or, Bool.not_eq_true, Bool.not_eq_true] at default
          have missed := (ahead t' m' above' offered' default.2).1 default.1
          rw [body] at missed
          cases missed
  · rw [answer, Option.some_or]
    exact .inl ⟨s, way, offered, own⟩

end Library

namespace Sample

/-- A method of an interface. -/
def offer (name className : String) (flags : UInt16) : MethodDecl :=
  { method [] [] with name := name, className := className, flags := ⟨flags⟩, maxLocals := 1 }

/-- An interface that declares `m` and has a default for `k`. -/
def general : LoadedClass :=
  { cls with
    name := "I", superName := some objectName, flags := ⟨0x0601⟩, id := 1
    methods := [offer "m" "I" 0x0401, offer "k" "I" 0x0001] }

/-- An interface that extends it and has defaults for both. -/
def specific : LoadedClass :=
  { general with
    name := "J", interfaces := ["I"], id := 2
    methods := [offer "m" "J" 0x0001, offer "k" "J" 0x0001] }

/-- A class that implements interfaces and declares nothing. -/
def implementer (interfaces : List String) : LoadedClass :=
  { general with name := "R", interfaces, flags := ⟨0x0021⟩, methods := [], id := 3 }

/-- The three under the topmost class. -/
def diamond (interfaces : List String) : Library :=
  ⟨[implementer interfaces, specific, general,
    { general with name := objectName, superName := none, methods := [], id := 0 }]⟩

end Sample

namespace Library

/-- No class is above its own parent. -/
def Acyclic (lib : Library) : Prop := ∀ s t, lib.Parent s t → ¬ lib.Ancestor t s

theorem diamond_parent {interfaces : List String} {s t : String}
    (h : (Sample.diamond interfaces).Parent s t) :
    (s = "R" ∧ (t ∈ interfaces ∨ t = objectName)) ∨ (s = "J" ∧ (t = "I" ∨ t = objectName)) ∨
      s = "I" ∧ t = objectName := by
  obtain ⟨c, found, above⟩ := h
  obtain rfl := name_of_find? found
  rcases mem_of_find? found with - | ⟨_, - | ⟨_, - | ⟨_, - | ⟨_, ⟨⟩⟩⟩⟩⟩
  · exact .inl ⟨rfl, above.imp id fun same => (Option.some.inj same).symm⟩
  · exact .inr (.inl ⟨rfl, above.imp List.mem_singleton.mp fun same => (Option.some.inj same).symm⟩)
  · exact .inr (.inr ⟨rfl, (Option.some.inj (above.resolve_left nofun)).symm⟩)
  · obtain above | above := above <;> cases above

theorem findVirtual_complete_diamond :
    let lib := Sample.diamond ["J", "I"]
    lib.find? "R" = some (Sample.implementer ["J", "I"]) ∧ lib.DefaultsFirst "R" "k" "()V" ∧
      ∃ t, lib.Superinterface "R" t ∧ lib.Offers t "k" "()V" (Sample.offer "k" "J" 0x0001) := by
  have order : (Sample.diamond ["J", "I"]).DefaultsFirst "R" "k" "()V" := by
    have searched : (Sample.diamond ["J", "I"]).superinterfaces "R" =
        [Sample.specific, Sample.general, Sample.general] := rfl
    rw [DefaultsFirst, searched]
    refine .cons ?_ (.cons ?_ (.cons nofun .nil))
    · intro i listed m m' own other _
      obtain rfl : i = Sample.general := (List.mem_pair.mp listed).elim id id
      cases own
      refine ⟨fun _ => rfl, fun up => ?_⟩
      have below := (isSubclass_iff_ancestor _ _ _).mpr up
      revert below
      decide
    · intro i listed m m' own other _
      obtain rfl := List.mem_singleton.mp listed
      cases own
      exact ⟨fun _ => rfl, fun _ => rfl⟩
  refine ⟨rfl, order, ?_⟩
  have chosen : (Sample.diamond ["J", "I"]).findVirtual (Sample.implementer ["J", "I"]) "k" "()V" =
      some (Sample.offer "k" "J" 0x0001) := rfl
  have complete := findVirtual_complete (c := Sample.implementer ["J", "I"]) rfl order
  rw [chosen] at complete
  obtain ⟨s, way, ⟨d, found, declared⟩, -⟩ | ⟨-, t, above, offered, -⟩ := complete
  · have listed := (mem_lineage (c := Sample.implementer ["J", "I"]) rfl).mpr ⟨s, way, found⟩
    obtain rfl | rfl := List.mem_pair.mp listed <;> cases declared
  · exact ⟨t, above, offered⟩

/-- In the other order the default for one method is missed, and the less specific one of another is
taken. -/
theorem findVirtual_misses_defaults :
    let lib := Sample.diamond ["I", "J"]
    lib.Acyclic ∧ lib.find? "R" = some (Sample.implementer ["I", "J"]) ∧
      lib.Superinterface "R" "J" ∧ lib.Ancestor "J" "I" ∧
      (lib.findVirtual (Sample.implementer ["I", "J"]) "m" "()V" = none ∧
        lib.Offers "J" "m" "()V" (Sample.offer "m" "J" 0x0001)) ∧
      lib.findVirtual (Sample.implementer ["I", "J"]) "k" "()V" =
        some (Sample.offer "k" "I" 0x0001) ∧
      lib.Offers "J" "k" "()V" (Sample.offer "k" "J" 0x0001) := by
  refine ⟨?_, rfl, ⟨"R", Sample.implementer ["I", "J"], .refl, rfl, by decide⟩,
    .single ⟨Sample.specific, rfl, by decide⟩, ⟨rfl, Sample.specific, rfl, rfl⟩, rfl,
    Sample.specific, rfl, rfl⟩
  intro s t up back
  rw [← isSubclass_iff_ancestor] at back
  revert back
  rcases diamond_parent up with ⟨rfl, listed | rfl⟩ | ⟨rfl, rfl | rfl⟩ | ⟨rfl, rfl⟩
  · rcases List.mem_pair.mp listed with rfl | rfl <;> decide
  all_goals decide

end Library

end JavaMachine
