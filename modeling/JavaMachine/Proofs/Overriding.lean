import JavaMachine.Proofs.Balance
import JavaMachine.Proofs.Superinterfaces

/-!
# Methods of a superclass chain

Three searches walk the superclass chain of a class for a method: the one for the method that a
reference means, the one for the method that a call on an object runs, and the one for what a
special call runs instead, which begins at the direct superclass.  They begin at different classes
and skip different methods, and two of them go on to the superinterfaces when the chain has nothing.
`findVirtual_eq_some_iff` and `selectSpecial_eq_some_iff` say exactly what the last two answer.

What they answer is compared through the order of the chain: a class that comes before another one
on a chain has it as a superclass.  A call on an object runs a method at or below the one that its
reference means.  A special call runs what the superclass means by the method, except that a method
which the superclass only inherits from an interface is not found.
-/

namespace JavaMachine

open Relation (ReflTransGen)

/-- Two methods of one descriptor take as many operands if both belong to objects, or neither. -/
theorem MethodDecl.argCount_eq {m m' : MethodDecl} (descriptor : m.descriptor = m'.descriptor)
    (static : m.flags.isStatic = m'.flags.isStatic) : m.argCount = m'.argCount := by
  have type : m.type = m'.type := Except.ok.inj (m.typed.symm.trans (descriptor ▸ m'.typed))
  rw [argCount, argCount, receiverCount, receiverCount, type, static]

variable {lib : Library} {c d r current : LoadedClass} {m m' resolved : MethodDecl}
  {className name descriptor s t k super : String}

namespace Library

theorem resolveMethod_named (h : lib.resolveMethod className name descriptor = some m) :
    m.name = name ∧ m.descriptor = descriptor := by
  rw [resolveMethod, Option.orElse_eq_orElse, Option.orElse_eq_or] at h
  obtain chain | ⟨-, interface⟩ := Option.or_eq_some_iff.mp h
  · obtain ⟨d, -, found⟩ := List.exists_of_findSome?_eq_some chain
    exact method?_named found
  · exact interfaceMethodWithin_named interface

/-! ## The order of a chain -/

/-- No class is above its own superclass on a superclass chain. -/
def ChainsAcyclic (lib : Library) : Prop := ∀ s t, lib.Extends s t → ¬ lib.Superclass t s

/-- Two classes that are superclasses of each other are one. -/
theorem ChainsAcyclic.antisymm (acyclic : lib.ChainsAcyclic) (up : lib.Superclass s t)
    (back : lib.Superclass t s) : s = t := by
  obtain same | ⟨next, first, rest⟩ := up.cases_head
  · exact same
  · exact absurd (ReflTransGen.trans rest back) (acyclic s next first)

theorem Superclass.ancestor (h : lib.Superclass s t) : lib.Ancestor s t :=
  ReflTransGen.mono (fun _ _ ⟨c, found, named⟩ => ⟨c, found, .inr named⟩) _ _ h

theorem Acyclic.chains (acyclic : lib.Acyclic) : lib.ChainsAcyclic :=
  fun s t ⟨c, found, named⟩ back => acyclic s t ⟨c, found, .inr named⟩ back.ancestor

/-- A hierarchy in which a rank falls with every step up comes back nowhere. -/
theorem acyclic_of_rank (rank : String → Nat)
    (falls : ∀ c ∈ lib.classes, ∀ t ∈ c.interfaces ++ c.superName.toList, rank t < rank c.name) :
    lib.Acyclic := by
  have step {s t : String} (up : lib.Parent s t) : rank t < rank s := by
    obtain ⟨c, found, above⟩ := up
    rw [← name_of_find? found]
    refine falls c (mem_of_find? found) t (List.mem_append.mpr ?_)
    exact above.imp_right Option.mem_toList.mpr
  have below {t u : String} (way : lib.Ancestor t u) : rank u ≤ rank t := by
    induction way with
    | refl => exact Nat.le_refl _
    | tail _ up ih => exact Nat.le_trans (Nat.le_of_lt (step up)) ih
  exact fun s t up back => Nat.not_lt.mpr (below back) (step up)

/-- A class that comes before another one on a chain has it as a superclass. -/
theorem chainWithin_pairwise : ∀ (n : Nat) (s : String),
    (lib.chainWithin n s).Pairwise fun c d => lib.Superclass c.name d.name
  | 0, _ => .nil
  | n + 1, s => by
      unfold chainWithin
      split
      · exact .nil
      next c found =>
        refine .cons (fun d listed => ?_) ?_
        · split at listed
          · cases listed
          next super named =>
            obtain ⟨t, way, known⟩ := superclass_of_mem_chainWithin listed
            rw [name_of_find? found, name_of_find? known]
            exact .head ⟨c, found, named⟩ way
        · split
          · exact .nil
          · exact chainWithin_pairwise n _

theorem lineage_pairwise (known : lib.find? c.name = some c) :
    (lib.lineage c).Pairwise fun c d => lib.Superclass c.name d.name := by
  refine .cons (fun d listed => ?_) ?_
  · obtain ⟨t, way, found⟩ := (mem_lineage known).mp (List.mem_cons_of_mem c listed)
    rwa [name_of_find? found]
  · rw [above]
    split
    · exact .nil
    · exact chainWithin_pairwise _ _

/-- A search along the chain of a class answers with what it finds in a class that has above it all
others in which it would find something. -/
theorem exists_nearest {α : Type} {f : LoadedClass → Option α} {a : α}
    (known : lib.find? c.name = some c) (answer : (lib.lineage c).findSome? f = some a) :
    ∃ t d, lib.Superclass c.name t ∧ lib.find? t = some d ∧ f d = some a ∧
      ∀ s e, lib.Superclass c.name s → lib.find? s = some e → f e ≠ none → lib.Superclass t s := by
  obtain ⟨before, d, after, split, own, skipped⟩ := List.findSome?_eq_some_iff.mp answer
  obtain ⟨t, way, found⟩ := (mem_lineage known).mp (split ▸ List.mem_append_cons_self)
  refine ⟨t, d, way, found, own, fun s e wayS foundS some => ?_⟩
  have placed := (mem_lineage known).mpr ⟨s, wayS, foundS⟩
  rw [split, List.mem_append, List.mem_cons] at placed
  rw [← name_of_find? found, ← name_of_find? foundS]
  rcases placed with earlier | rfl | later
  · exact absurd (skipped e earlier) some
  · exact .refl
  · have order := lineage_pairwise known
    rw [split] at order
    exact (List.pairwise_cons.mp (List.pairwise_append.mp order).2.1).1 e later

/-! ## Calls on objects -/

/-- The class of a name declares a method. -/
def DeclaresMethod (lib : Library) (className : String) (m : MethodDecl) : Prop :=
  ∃ c, lib.find? className = some c ∧ m ∈ c.methods

/-- No class declares two methods of one name and descriptor. -/
def DeclaresOnce (lib : Library) : Prop :=
  ∀ s m m', lib.DeclaresMethod s m → lib.DeclaresMethod s m' → m.name = m'.name →
    m.descriptor = m'.descriptor → m = m'

/-- What a call on an object looks for in a class: an instance method. -/
def instanceMethod? (name descriptor : String) (c : LoadedClass) : Option MethodDecl :=
  (c.method? name descriptor).filter (!·.flags.isStatic)

theorem instanceMethod?_eq_some (once : lib.DeclaresOnce) (found : lib.find? s = some c) :
    instanceMethod? name descriptor c = some m ↔ m ∈ c.methods ∧ m.name = name ∧
      m.descriptor = descriptor ∧ m.flags.isStatic = false := by
  rw [instanceMethod?, Option.filter_eq_some_iff, Bool.not_eq_true']
  constructor
  · rintro ⟨search, belongs⟩
    obtain ⟨named, described⟩ := method?_named search
    exact ⟨List.mem_of_find?_eq_some search, named, described, belongs⟩
  · rintro ⟨listed, rfl, rfl, belongs⟩
    refine ⟨?_, belongs⟩
    cases search : c.method? m.name m.descriptor with
    | none =>
        have skipped := List.find?_eq_none.mp search m listed
        simp at skipped
    | some m' =>
        obtain ⟨named, described⟩ := method?_named search
        have declared := List.mem_of_find?_eq_some search
        rw [once s m' m ⟨c, found, declared⟩ ⟨c, found, listed⟩ named described]

/-- A call on an object falls back to the superinterfaces of its class.  No class on the superclass
chain declares an instance method of the name and descriptor, and the first superinterface that
declares a method of them at all, in the order of the search, has a body for it. -/
structure FallsBack (lib : Library) (c : LoadedClass) (name descriptor : String)
    (m : MethodDecl) : Prop where
  /-- No class on the chain declares such an instance method. -/
  chain : ∀ d ∈ lib.lineage c, instanceMethod? name descriptor d = none
  /-- It is the first declaration among the superinterfaces. -/
  first : (lib.superinterfaces c.name).findSome? (·.method? name descriptor) = some m
  /-- It has a body. -/
  body : m.flags.isAbstract = false

/-- A call on an object runs the nearest instance method of the superclass chain, or it falls back
to the superinterfaces. -/
theorem findVirtual_eq_some_iff : lib.findVirtual c name descriptor = some m ↔
    (lib.lineage c).findSome? (instanceMethod? name descriptor) = some m ∨
      lib.FallsBack c name descriptor m := by
  rw [findVirtual, Option.orElse_eq_orElse, Option.orElse_eq_or, Option.or_eq_some_iff,
    interfaceMethod_eq, Option.filter_eq_some_iff, Bool.not_eq_true']
  refine or_congr Iff.rfl ?_
  constructor
  · rintro ⟨chain, first, body⟩
    exact ⟨List.findSome?_eq_none_iff.mp chain, first, body⟩
  · intro h
    exact ⟨List.findSome?_eq_none_iff.mpr h.chain, h.first, h.body⟩

/-- Overriding goes downwards.  Let no superclass chain come back to where it began and no class
declare two methods of one name and descriptor.  Let a class on the superclass chain of the class of
an object mean an instance method by a name and a descriptor, and let a class on its own chain
declare that method.  Then a call on the object runs an instance method of that name and descriptor.
It is declared on the chain from the class of the object to the one that declares the method that is
meant, both included, by the class nearest to the object that declares such an instance method, and
it takes as many operands as the method that is meant. -/
theorem findVirtual_overrides (acyclic : lib.ChainsAcyclic) (once : lib.DeclaresOnce)
    (known : lib.find? r.name = some r) (below : lib.Superclass r.name className)
    (means : lib.resolveMethod className name descriptor = some resolved)
    (belongs : resolved.flags.isStatic = false) (above : lib.Superclass className k)
    (declared : lib.DeclaresMethod k resolved) :
    ∃ nearest m, lib.findVirtual r name descriptor = some m ∧
      lib.Superclass r.name nearest ∧ lib.Superclass nearest k ∧ lib.DeclaresMethod nearest m ∧
      m.name = name ∧ m.descriptor = descriptor ∧ m.flags.isStatic = false ∧
      (∀ s m', lib.Superclass r.name s → lib.Superclass s nearest → lib.DeclaresMethod s m' →
        m'.name = name → m'.descriptor = descriptor → m'.flags.isStatic = false → s = nearest) ∧
      m.argCount = resolved.argCount := by
  obtain ⟨rfl, rfl⟩ := resolveMethod_named means
  obtain ⟨c, found, listed⟩ := declared
  have way : lib.Superclass r.name k := ReflTransGen.trans below above
  have own : instanceMethod? resolved.name resolved.descriptor c = some resolved :=
    (instanceMethod?_eq_some once found).mpr ⟨listed, rfl, rfl, belongs⟩
  cases answer : (lib.lineage r).findSome? (instanceMethod? resolved.name resolved.descriptor) with
  | none =>
      -- The chain reaches the class that declares the method, where the search would have ended.
      have placed := (mem_lineage known).mpr ⟨k, way, found⟩
      have skipped := List.findSome?_eq_none_iff.mp answer c placed
      rw [own] at skipped
      cases skipped
  | some m =>
      obtain ⟨nearest, d, wayD, foundD, ownD, first⟩ := exists_nearest known answer
      obtain ⟨listedD, named, described, belongsD⟩ := (instanceMethod?_eq_some once foundD).mp ownD
      refine ⟨nearest, m, findVirtual_eq_some_iff.mpr (.inl answer), wayD,
        first k c way found (by simp [own]), ⟨d, foundD, listedD⟩, named, described, belongsD,
        ?_, ?_⟩
      · rintro s m' wayS up ⟨e, foundS, listedS⟩ named' described' belongs'
        have ownS := (instanceMethod?_eq_some once foundS).mpr
          ⟨listedS, named', described', belongs'⟩
        exact acyclic.antisymm up (first s e wayS foundS (by simp [ownS]))
      · exact MethodDecl.argCount_eq described (belongsD.trans belongs.symm)

end Library

namespace Sample

/-- A class below another one. -/
def tier (name super : String) (methods : List MethodDecl) (id : Nat) : LoadedClass :=
  { implementer [] with name, superName := some super, methods, id }

/-- An instance method, two floors above it an override, and above that a static method of the same
name and descriptor. -/
def tower : Library :=
  ⟨[tier "E" "D" [] 5, tier "D" "C" [offer "m" "D" 0x0009] 4, tier "C" "B" [offer "m" "C" 0x0001] 3,
    tier "B" "A" [] 2, tier "A" objectName [offer "m" "A" 0x0001] 1,
    { tier objectName "" [] 0 with superName := none }]⟩

/-- The floor of a name, given the names from the first floor up. -/
def floor (names : List String) (name : String) : Nat := (names.idxOf? name).elim 0 (· + 1)

theorem tower_acyclic : tower.Acyclic :=
  Library.acyclic_of_rank (floor ["A", "B", "C", "D", "E"]) (by decide)

theorem tower_declaresOnce : tower.DeclaresOnce := by
  have single : ∀ c ∈ tower.classes, c.methods.length ≤ 1 := by decide
  rintro s m m' ⟨c, found, listed⟩ ⟨c', found', listed'⟩ - -
  cases found.symm.trans found'
  have few := single c (Library.mem_of_find? found)
  match c.methods, few, listed, listed' with
  | [only], _, listed, listed' =>
      exact (List.mem_singleton.mp listed).trans (List.mem_singleton.mp listed').symm

end Sample

namespace Library

/-- A call on an object on top of the tower skips the static method and runs the override. -/
theorem findVirtual_overrides_tower :
    let lib := Sample.tower
    lib.ChainsAcyclic ∧ lib.DeclaresOnce ∧
      lib.resolveMethod "B" "m" "()V" = some (Sample.offer "m" "A" 0x0001) ∧
      lib.findVirtual (Sample.tier "E" "D" [] 5) "m" "()V" = some (Sample.offer "m" "C" 0x0001) ∧
      (Sample.offer "m" "C" 0x0001).argCount = (Sample.offer "m" "A" 0x0001).argCount := by
  have below : Sample.tower.Superclass "E" "B" :=
    .head ⟨_, rfl, rfl⟩ (.head ⟨_, rfl, rfl⟩ (.single ⟨_, rfl, rfl⟩))
  have means : Sample.tower.resolveMethod "B" "m" "()V" = some (Sample.offer "m" "A" 0x0001) := rfl
  have above : Sample.tower.Superclass "B" "A" := .single ⟨_, rfl, rfl⟩
  obtain ⟨nearest, m, run, -, -, -, -, -, -, -, takes⟩ :=
    findVirtual_overrides (r := Sample.tier "E" "D" [] 5) Sample.tower_acyclic.chains
      Sample.tower_declaresOnce rfl below means rfl above ⟨_, rfl, List.mem_singleton_self _⟩
  obtain rfl : Sample.offer "m" "C" 0x0001 = m := Option.some.inj run
  exact ⟨Sample.tower_acyclic.chains, Sample.tower_declaresOnce, rfl, rfl, takes⟩

/-! ## Special calls -/

/-- A special call starts again at the direct superclass: the class has the super flag, the
reference names another class on its superclass chain, and the method that is meant is no
constructor. -/
structure SuperCall (lib : Library) (current : LoadedClass) (className : String)
    (resolved : MethodDecl) : Prop where
  /-- The class has the super flag. -/
  flagged : current.flags.isSuper = true
  /-- The reference names another class. -/
  other : className ≠ current.name
  /-- The method is no constructor. -/
  plain : resolved.isConstructor = false
  /-- The class of that name is on the superclass chain. -/
  above : ∃ super, current.superName = some super ∧ lib.Superclass super className ∧
    ∃ d, lib.find? className = some d

theorem any_above_iff : (lib.above current.toClassDecl).any (·.name == className) = true ↔
    ∃ super, current.superName = some super ∧ lib.Superclass super className ∧
      ∃ d, lib.find? className = some d := by
  rw [Library.above]
  cases current.superName with
  | none => simp
  | some super =>
      simp only [List.any_eq_true, beq_iff_eq, Option.some.injEq, exists_eq_left']
      constructor
      · rintro ⟨d, listed, rfl⟩
        obtain ⟨t, way, found⟩ := mem_chain.mp listed
        rw [name_of_find? found]
        exact ⟨way, d, found⟩
      · rintro ⟨way, d, found⟩
        exact ⟨d, mem_chain.mpr ⟨className, way, found⟩, name_of_find? found⟩

theorem superCall_iff : lib.SuperCall current className resolved ↔
    (current.flags.isSuper && className != current.name && !resolved.isConstructor &&
      (lib.above current.toClassDecl).any (·.name == className)) = true := by
  rw [Bool.and_eq_true, Bool.and_eq_true, Bool.and_eq_true, any_above_iff, bne_iff_ne,
    Bool.not_eq_true']
  exact ⟨fun h => ⟨⟨⟨h.flagged, h.other⟩, h.plain⟩, h.above⟩, fun ⟨⟨⟨a, b⟩, c⟩, d⟩ => ⟨a, b, c, d⟩⟩

/-- In every other case a special call runs the method that is meant. -/
theorem selectSpecial_of_not_superCall (h : ¬ lib.SuperCall current className resolved) :
    lib.selectSpecial current className resolved = some resolved := by
  rw [superCall_iff] at h
  exact if_neg h

/-- A special call that starts again runs the nearest method above the class unless that is
abstract. -/
theorem selectSpecial_of_superCall (h : lib.SuperCall current className resolved) :
    lib.selectSpecial current className resolved =
      ((lib.above current.toClassDecl).findSome?
        (·.method? resolved.name resolved.descriptor)).filter (!·.flags.isAbstract) := by
  unfold selectSpecial
  dsimp only
  rw [if_pos (superCall_iff.mp h)]

/-- A special call that starts again finds a method: the nearest one above the class of the name and
descriptor of the method that is meant, and this has a body. -/
structure Restarts (lib : Library) (current : LoadedClass) (className : String)
    (resolved m : MethodDecl) : Prop where
  /-- The call starts again. -/
  call : lib.SuperCall current className resolved
  /-- It is the nearest declaration above the class. -/
  nearest : (lib.above current.toClassDecl).findSome?
    (·.method? resolved.name resolved.descriptor) = some m
  /-- It has a body. -/
  body : m.flags.isAbstract = false

theorem Restarts.named (h : lib.Restarts current className resolved m) :
    m.name = resolved.name ∧ m.descriptor = resolved.descriptor := by
  obtain ⟨d, -, own⟩ := List.exists_of_findSome?_eq_some h.nearest
  exact method?_named own

/-- A special call runs the method that is meant, or what it finds when it starts again. -/
theorem selectSpecial_eq_some_iff : lib.selectSpecial current className resolved = some m ↔
    ¬ lib.SuperCall current className resolved ∧ resolved = m ∨
      lib.Restarts current className resolved m := by
  by_cases call : lib.SuperCall current className resolved
  · rw [selectSpecial_of_superCall call, Option.filter_eq_some_iff, Bool.not_eq_true']
    constructor
    · rintro ⟨nearest, body⟩
      exact .inr ⟨call, nearest, body⟩
    · rintro (⟨other, -⟩ | h)
      · exact absurd call other
      · exact ⟨h.nearest, h.body⟩
  · rw [selectSpecial_of_not_superCall call, Option.some_inj]
    constructor
    · exact fun same => .inl ⟨call, same⟩
    · rintro (⟨-, same⟩ | h)
      · exact same
      · exact absurd h.call call

/-- A class means something by a name and a descriptor when a superclass does. -/
theorem exists_resolveMethod (way : lib.Superclass s t)
    (means : lib.resolveMethod t name descriptor = some m) :
    ∃ m', lib.resolveMethod s name descriptor = some m' := by
  rw [← Option.isSome_iff_exists]
  rw [resolveMethod, Option.orElse_eq_orElse, Option.orElse_eq_or] at means ⊢
  rw [Option.isSome_or, Bool.or_eq_true]
  obtain chain | ⟨-, interface⟩ := Option.or_eq_some_iff.mp means
  · obtain ⟨d, listed, own⟩ := List.exists_of_findSome?_eq_some chain
    obtain ⟨k, up, found⟩ := mem_chain.mp listed
    refine .inl (List.findSome?_isSome_iff.mpr ⟨d, ?_, by simp [own]⟩)
    exact mem_chain.mpr ⟨k, ReflTransGen.trans way up, found⟩
  · rw [interfaceMethod_eq] at interface ⊢
    obtain ⟨i, listed, own⟩ := List.exists_of_findSome?_eq_some interface
    obtain ⟨k, ⟨heir, c, up, looked, above⟩, found⟩ := mem_superinterfaces.mp listed
    refine .inr (List.findSome?_isSome_iff.mpr ⟨i, ?_, by simp [own]⟩)
    exact mem_superinterfaces.mpr
      ⟨k, ⟨heir, c, ReflTransGen.trans way.ancestor up, looked, above⟩, found⟩

/-- If a name means a method with a body, then a class on its superclass chain declares a method of
that name and descriptor: the method is not one that the chain only inherits from an interface. -/
def ImplementedByClass (lib : Library) (className name descriptor : String) : Prop :=
  ∀ m, lib.resolveMethod className name descriptor = some m → m.flags.isAbstract = false →
    ∃ t m', lib.Superclass className t ∧ lib.Offers t name descriptor m'

/-- A special call agrees with what its reference would mean in the direct superclass.  When it
starts again there, the superclass means something by the name and the descriptor of the method; the
call runs this if it has a body, and nothing is found if it is abstract.  This is so if the
superclass does not merely inherit the body from an interface.  When the call does not start again,
it runs the method that is meant. -/
theorem selectSpecial_agrees (means : lib.resolveMethod className name descriptor = some resolved)
    (implemented : ∀ super, current.superName = some super →
      lib.ImplementedByClass super name descriptor) :
    (lib.SuperCall current className resolved → ∃ super m, current.superName = some super ∧
      lib.resolveMethod super resolved.name resolved.descriptor = some m ∧
      lib.selectSpecial current className resolved = if m.flags.isAbstract then none else some m) ∧
    (¬ lib.SuperCall current className resolved →
      lib.selectSpecial current className resolved = some resolved) := by
  refine ⟨fun h => ?_, selectSpecial_of_not_superCall⟩
  obtain ⟨rfl, rfl⟩ := resolveMethod_named means
  obtain ⟨super, named, way, -⟩ := h.above
  obtain ⟨m, meant⟩ := exists_resolveMethod way means
  refine ⟨super, m, named, meant, ?_⟩
  rw [selectSpecial_of_superCall h, Library.above, named]
  have found := meant
  rw [resolveMethod, Option.orElse_eq_orElse, Option.orElse_eq_or] at found
  obtain chain | ⟨none, -⟩ := Option.or_eq_some_iff.mp found
  · rw [chain]
    cases body : m.flags.isAbstract <;> simp [body]
  · -- The method comes from an interface, so it has no body unless a class declares it too.
    rw [none]
    cases body : m.flags.isAbstract with
    | true => rfl
    | false =>
        obtain ⟨t, m', up, d, known, own⟩ := implemented super named m meant body
        have skipped := List.findSome?_eq_none_iff.mp none d (mem_chain.mpr ⟨t, up, known⟩)
        rw [own] at skipped
        cases skipped

/-- A special call in the class with the static method, to the method two floors below, runs the
override in between. -/
theorem selectSpecial_agrees_tower :
    let lib := Sample.tower
    let current := Sample.tier "D" "C" [Sample.offer "m" "D" 0x0009] 4
    lib.SuperCall current "A" (Sample.offer "m" "A" 0x0001) ∧
      lib.selectSpecial current "A" (Sample.offer "m" "A" 0x0001) =
        some (Sample.offer "m" "C" 0x0001) := by
  intro lib current
  have call : lib.SuperCall current "A" (Sample.offer "m" "A" 0x0001) :=
    ⟨by decide, by decide, rfl, "C", rfl, .head ⟨_, rfl, rfl⟩ (.single ⟨_, rfl, rfl⟩), _, rfl⟩
  have means : lib.resolveMethod "A" "m" "()V" = some (Sample.offer "m" "A" 0x0001) := rfl
  have implemented (super : String) (named : current.superName = some super) :
      lib.ImplementedByClass super "m" "()V" := by
    obtain rfl : "C" = super := Option.some.inj named
    exact fun _ _ _ => ⟨"C", _, .refl, _, rfl, rfl⟩
  obtain ⟨super, m, named, meant, run⟩ := (selectSpecial_agrees means implemented).1 call
  obtain rfl : "C" = super := Option.some.inj named
  obtain rfl : Sample.offer "m" "C" 0x0001 = m := Option.some.inj meant
  exact ⟨call, run⟩

end Library

namespace Sample

/-- The diamond with a class below it.  The class in between declares nothing and has a default
method. -/
def heir : Library := ⟨tier "C" "R" [] 4 :: (diamond ["I"]).classes⟩

theorem heir_acyclic : heir.Acyclic :=
  Library.acyclic_of_rank (floor ["I", "J", "R", "C"]) (by decide)

end Sample

namespace Library

/-- A special call does not find a default method that the direct superclass has inherited, although
the superclass means it and it has a body. -/
theorem selectSpecial_misses_default :
    let lib := Sample.heir
    let current := Sample.tier "C" "R" [] 4
    lib.Acyclic ∧ lib.SuperCall current "R" (Sample.offer "k" "I" 0x0001) ∧
      lib.resolveMethod "R" "k" "()V" = some (Sample.offer "k" "I" 0x0001) ∧
      (Sample.offer "k" "I" 0x0001).flags.isAbstract = false ∧
      lib.selectSpecial current "R" (Sample.offer "k" "I" 0x0001) = none :=
  ⟨Sample.heir_acyclic, ⟨by decide, by decide, rfl, "R", rfl, .refl, _, rfl⟩, rfl, rfl, rfl⟩

end Library

end JavaMachine
