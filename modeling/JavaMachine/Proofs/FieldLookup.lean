import JavaMachine.Bootstrap
import JavaMachine.Proofs.Stirring

/-!
# Fields and where they are found

A field is looked up three times before a value is stored into it.  A reference is resolved by name
in the hierarchy, and what was found is remembered; a static field is then a place among the fields
of its class, and a field of an object is searched once more in the object, by its name and its
class.  The look-ups agree: the field that a reference means is the first one of its name in its
class, and if it belongs to objects, then the first field of that name and class in an object is the
same one.

The machine itself stores into two fields, that of the characters of a string and that of the
message of an exception.  In a library with the bootstrap classes both belong to objects and are
references.
-/

namespace JavaMachine

/-! ## What a class declares -/

/-- What a list of texts is read into comes from one of them. -/
theorem mem_of_mapM_ok {α β : Type} {g : α → Except Fault β} {b : β} :
    ∀ {as : List α} {bs : List β}, as.mapM g = .ok bs → b ∈ bs → ∃ a ∈ as, g a = .ok b
  | [], bs, read, listed => by
      cases read
      cases listed
  | a :: as, bs, read, listed => by
      rw [List.mapM_cons] at read
      cases first : g a with
      | error e => simp [first, bind, Except.bind] at read
      | ok c =>
          cases rest : as.mapM g with
          | error e => simp [first, rest, bind, Except.bind] at read
          | ok cs =>
              simp only [first, rest, bind, Except.bind, pure, Except.pure] at read
              cases read
              rcases List.mem_cons.mp listed with rfl | inside
              · exact ⟨a, List.mem_cons_self, first⟩
              · obtain ⟨a', inside, read⟩ := mem_of_mapM_ok rest inside
                exact ⟨a', List.mem_cons_of_mem a inside, read⟩

/-- A class is read from what a host has written down. -/
structure ClassSpec.Reads (s : ClassSpec) (c : ClassDecl) : Prop where
  /-- The name is as written. -/
  name : c.name = s.name
  /-- The superclass is as written. -/
  superName : c.superName = s.superName
  /-- The superinterfaces are as written. -/
  interfaces : c.interfaces = s.interfaces
  /-- The fields are read one by one. -/
  fields : s.fields.mapM (FieldSpec.build s.name) = .ok c.fields

theorem ClassSpec.build_reads {s : ClassSpec} {c : ClassDecl} (h : s.build = .ok c) : s.Reads c := by
  unfold build at h
  cases methods : s.methods.mapM (MethodSpec.build s.name) with
  | error e => simp [methods, bind, Except.bind] at h
  | ok ms =>
      cases fields : s.fields.mapM (FieldSpec.build s.name) with
      | error e => simp [methods, fields, bind, Except.bind] at h
      | ok fs =>
          simp only [methods, fields, bind, Except.bind, pure, Except.pure] at h
          cases h
          exact ⟨rfl, rfl, rfl, fields⟩

/-- The fields of a class that was read bear its name. -/
theorem ClassSpec.Reads.own {s : ClassSpec} {c : ClassDecl} (reads : s.Reads c) :
    ∀ f ∈ c.fields, f.className = c.name := by
  intro f listed
  obtain ⟨spec, -, built⟩ := mem_of_mapM_ok reads.fields listed
  unfold FieldSpec.build at built
  cases type : JType.ofField spec.descriptor with
  | error e => simp [type, bind, Except.bind] at built
  | ok t =>
      simp only [type, bind, Except.bind, pure, Except.pure] at built
      cases built
      exact reads.name.symm

/-- Without any flag a field belongs to objects. -/
theorem Flags.isStatic_none : (⟨0⟩ : Flags).isStatic = false := by decide

namespace Library

variable {lib : Library} {c d : LoadedClass} {f : FieldRef} {className name : String}

/-! ## The field that a reference means -/

/-- A field is the one that a class of the library means by its name. -/
def Declares (lib : Library) (f : FieldRef) : Prop :=
  ∃ c, lib.find? c.name = some c ∧ c.field? f.decl.name = some f

/-- What a class means by a name is its first field of that name. -/
theorem field?_eq_some (h : c.field? name = some f) :
    f.owner = c.ref ∧ c.fields[f.index]? = some f.decl ∧
      c.fields.find? (·.name == name) = some f.decl := by
  unfold LoadedClass.field? at h
  cases place : c.fieldIdx? name with
  | none => simp [place, bind] at h
  | some i =>
      cases found : c.fields[i]? with
      | none => simp [place, found, bind] at h
      | some decl =>
          simp only [place, found, bind, Option.bind, pure] at h
          cases h
          refine ⟨rfl, found, ?_⟩
          rw [List.find?_eq_bind_findIdx?_getElem?]
          unfold ClassDecl.fieldIdx? at place
          rw [place]
          exact found

theorem name_of_field? (h : c.field? name = some f) : f.decl.name = name :=
  eq_of_beq (List.find?_some (p := fun g : FieldDecl => g.name == name) (field?_eq_some h).2.2)

theorem findFieldWithin_declares : ∀ {n : Nat} {className : String},
    lib.findFieldWithin n className name = some f → lib.Declares f
  | 0, _, found => nomatch found
  | n + 1, className, found => by
      unfold findFieldWithin at found
      obtain ⟨c, looked, found⟩ := Option.bind_eq_some_iff.mp found
      have known : lib.find? c.name = some c := by
        rw [name_of_find? looked]
        exact looked
      cases own : c.field? name with
      | some g =>
          rw [own] at found
          cases found
          exact ⟨c, known, (name_of_field? own).symm ▸ own⟩
      | none =>
          rw [own] at found
          cases above : c.interfaces.findSome? (lib.findFieldWithin n · name) with
          | some g =>
              simp only [above, HOrElse.hOrElse] at found
              cases found
              obtain ⟨i, -, found⟩ := List.exists_of_findSome?_eq_some above
              exact findFieldWithin_declares found
          | none =>
              simp only [above, HOrElse.hOrElse] at found
              obtain ⟨s, -, found⟩ := Option.bind_eq_some_iff.mp found
              exact findFieldWithin_declares found

/-- The field that a reference means is declared. -/
theorem findField_declares (h : lib.findField className name = some f) : lib.Declares f :=
  findFieldWithin_declares h

/-! ## The fields of an object -/

theorem find?_of_mem_chainWithin : ∀ {n : Nat} {name : String},
    d ∈ lib.chainWithin n name → lib.find? d.name = some d
  | 0, _, listed => nomatch listed
  | n + 1, name, listed => by
      unfold chainWithin at listed
      cases found : lib.find? name with
      | none => simp [found] at listed
      | some c =>
          simp only [found] at listed
          rcases List.mem_cons.mp listed with rfl | above
          · rw [name_of_find? found]
            exact found
          · cases super : c.superName with
            | none => simp [super] at above
            | some s =>
                rw [super] at above
                exact find?_of_mem_chainWithin above

/-- The library means the classes above a class by their names. -/
theorem find?_of_mem_lineage (known : lib.find? c.name = some c) (listed : d ∈ lib.lineage c) :
    lib.find? d.name = some d := by
  rcases List.mem_cons.mp listed with rfl | above
  · exact known
  · unfold Library.above at above
    split at above
    · cases above
    · exact find?_of_mem_chainWithin above

theorem mem_chainWithin_self {n : Nat} (looked : lib.find? name = some c) :
    c ∈ lib.chainWithin (n + 1) name := by
  unfold chainWithin
  rw [looked]
  exact List.mem_cons_self

theorem mem_chainWithin_above {n : Nat} {super : String} (looked : lib.find? name = some c)
    (above : c.superName = some super) (listed : d ∈ lib.chainWithin n super) :
    d ∈ lib.chainWithin (n + 1) name := by
  unfold chainWithin
  rw [looked]
  dsimp only
  rw [above]
  exact List.mem_cons_of_mem c listed

theorem mem_chainWithin_succ : ∀ {n : Nat} {name : String}, d ∈ lib.chainWithin n name →
    d ∈ lib.chainWithin (n + 1) name
  | 0, _, listed => nomatch listed
  | n + 1, name, listed => by
      rw [chainWithin] at listed
      split at listed
      · cases listed
      next c looked =>
        rcases List.mem_cons.mp listed with rfl | listed
        · exact mem_chainWithin_self looked
        · split at listed
          · cases listed
          next super above =>
            exact mem_chainWithin_above looked above (mem_chainWithin_succ listed)

theorem mem_chainWithin_mono {k n : Nat} (le : k ≤ n) (listed : d ∈ lib.chainWithin k name) :
    d ∈ lib.chainWithin n name := by
  induction le with
  | refl => exact listed
  | step _ longer => exact mem_chainWithin_succ longer

/-- What is on the way up from the name of a class is in its lineage. -/
theorem mem_lineage_of_chain (looked : lib.find? name = some c) (listed : d ∈ lib.chain name) :
    d ∈ lib.lineage c := by
  have longer := mem_chainWithin_succ listed
  unfold chainWithin at longer
  rw [looked] at longer
  exact longer

/-- A field that a superclass declares and that is not static is a field of objects of the class. -/
theorem mem_instanceFields {g : FieldDecl} (looked : lib.find? name = some c)
    (listed : d ∈ lib.chain name) (declared : g ∈ d.fields) (ofObjects : g.flags.isStatic = false) :
    g ∈ lib.instanceFields c :=
  List.mem_flatMap.mpr ⟨d, mem_lineage_of_chain looked listed,
    List.mem_filter.mpr ⟨declared, by simp [ofObjects]⟩⟩

/-- The first element with a property is also the first one with a stronger property that it has. -/
theorem find?_of_stronger {α : Type} {p q : α → Bool} {a : α} (stronger : ∀ x, p x = true → q x = true)
    (holds : p a = true) : ∀ {l : List α}, l.find? q = some a → l.find? p = some a
  | [], found => nomatch found
  | b :: l, found => by
      rw [List.find?_cons] at found ⊢
      cases first : q b with
      | true =>
          rw [first] at found
          cases found
          rw [holds]
      | false =>
          rw [first] at found
          have other : p b = false := by
            cases h : p b with
            | false => rfl
            | true => rw [stronger b h] at first; cases first
          rw [other]
          exact find?_of_stronger stronger holds found

/-- Every field bears the name of the class that declares it. -/
def Owns (lib : Library) : Prop := ∀ c ∈ lib.classes, ∀ f ∈ c.fields, f.className = c.name

/-- In an object the first field of the name and class of a declared field is that field. -/
theorem instanceFields_find? (owns : lib.Owns) (known : lib.find? c.name = some c)
    (declared : lib.Declares f) (ofObjects : f.decl.flags.isStatic = false) {g : FieldDecl}
    (found : (lib.instanceFields c).find?
      (fun g => g.name == f.decl.name && g.className == f.decl.className) = some g) :
    g = f.decl := by
  unfold instanceFields at found
  rw [List.find?_flatMap] at found
  obtain ⟨d, listed, found⟩ := List.exists_of_findSome?_eq_some found
  have listed := find?_of_mem_lineage known listed
  obtain ⟨e, means, field⟩ := declared
  obtain ⟨-, -, first⟩ := field?_eq_some field
  -- the class in which the object finds the field is the one that declares it
  have same : d = e := by
    have named := List.find?_some found
    have inside := (List.mem_filter.mp (List.mem_of_find?_eq_some found)).1
    have bears := owns d (mem_of_find? listed) g inside
    have bears' := owns e (mem_of_find? means) f.decl (List.mem_of_find?_eq_some first)
    rw [Bool.and_eq_true, beq_iff_eq, beq_iff_eq] at named
    rw [← bears, named.2, bears', means] at listed
    exact (Option.some.inj listed).symm
  subst same
  have bears := owns d (mem_of_find? listed) f.decl (List.mem_of_find?_eq_some first)
  rw [List.find?_filter, find?_of_stronger (q := (·.name == f.decl.name)) _ _ first] at found
  · exact (Option.some.inj found).symm
  · intro x holds
    simp only [Bool.and_eq_true, decide_eq_true_eq] at holds
    exact holds.2.1
  · simp [ofObjects]

/-! ## The fields that the machine itself uses -/

/-- The class of its name is the one that a host has written down. -/
def Provides (lib : Library) (s : ClassSpec) : Prop :=
  ∃ c, lib.find? s.name = some c ∧ s.build = .ok c.toClassDecl

/-- The library has the classes of strings and exceptions as the machine brings them along. -/
def Bootstrapped (lib : Library) : Prop :=
  ∀ s ∈ Bootstrap.classes, s.name = stringClassName ∨ s.name ∈ Bootstrap.throwables.map Prod.fst →
    lib.Provides s

/-- A field that a class itself declares is found in it. -/
theorem findFieldWithin_own {n : Nat} {g : FieldRef} (looked : lib.find? className = some c)
    (own : c.field? name = some g) (found : lib.findFieldWithin n className name = some f) :
    f = g := by
  cases n with
  | zero => cases found
  | succ n =>
      unfold findFieldWithin at found
      simp only [looked, own, bind, Option.bind] at found
      exact (Option.some.inj found).symm

/-- A class that declares nothing of a name and has no superinterfaces finds what its superclass
finds. -/
theorem findFieldWithin_above {n : Nat} {super : String} (looked : lib.find? className = some c)
    (fields : c.fields = []) (interfaces : c.interfaces = []) (above : c.superName = some super)
    (found : lib.findFieldWithin n className name = some f) :
    ∃ k, k < n ∧ lib.findFieldWithin k super name = some f := by
  cases n with
  | zero => cases found
  | succ n =>
      unfold findFieldWithin at found
      simp [looked, LoadedClass.field?, ClassDecl.fieldIdx?, fields, interfaces, above] at found
      exact ⟨n, Nat.lt_succ_self n, found⟩

/-- A class with one field means that one by its name. -/
theorem field?_of_single {d : FieldDecl} (fields : [d] = c.fields) :
    c.field? d.name = some ⟨c.ref, 0, d⟩ := by
  simp [LoadedClass.field?, ClassDecl.fieldIdx?, ← fields]

/-- The field for the characters of a string. -/
def charactersField : FieldDecl := ⟨"value", "[C", ⟨0⟩, stringClassName, .array .char⟩

/-- The field for the message of an exception. -/
def messageField : FieldDecl :=
  ⟨"detailMessage", "Ljava/lang/String;", ⟨0⟩, "java/lang/Throwable", .reference stringClassName⟩

/-- The class of strings has one field. -/
theorem Bootstrapped.string (boot : lib.Bootstrapped) :
    ∃ c, lib.find? stringClassName = some c ∧ [charactersField] = c.fields := by
  let string : ClassSpec :=
    { name := stringClassName, interfaces := ["java/io/Serializable"]
      fields := [⟨"value", "[C", 0⟩] }
  have listed : string ∈ Bootstrap.classes :=
    List.mem_append_left _ (.tail _ (.tail _ (.tail _ (.tail _ (.head _)))))
  obtain ⟨c, looked, built⟩ := boot string listed (.inl rfl)
  have read : string.fields.mapM (FieldSpec.build stringClassName) = .ok [charactersField] := by rfl
  exact ⟨c, looked, Except.ok.inj (read.symm.trans (ClassSpec.build_reads built).fields)⟩

/-- The characters of a string are a field of objects with a reference type. -/
theorem Bootstrapped.characters (boot : lib.Bootstrapped)
    (found : lib.findField stringClassName "value" = some f) :
    f.decl.flags.isStatic = false ∧ f.decl.type.isReference = true := by
  obtain ⟨c, looked, fields⟩ := boot.string
  rw [findFieldWithin_own looked (field?_of_single fields) found]
  exact ⟨Flags.isStatic_none, rfl⟩

/-- A superclass of an exception but the topmost one is an exception too. -/
theorem throwables_closed : ∀ p ∈ Bootstrap.throwables,
    p.1 = "java/lang/Throwable" ∨ p.2 ∈ Bootstrap.throwables.map Prod.fst := by
  decide +kernel

/-- The class of an exception has the field for the message, or it has no fields and a superclass of
which this is so too. -/
theorem Bootstrapped.throwable (boot : lib.Bootstrapped)
    (listed : name ∈ Bootstrap.throwables.map Prod.fst) : ∃ c, lib.find? name = some c ∧
      ([messageField] = c.fields ∨ ∃ super ∈ Bootstrap.throwables.map Prod.fst,
        c.fields = [] ∧ c.interfaces = [] ∧ c.superName = some super) := by
  obtain ⟨⟨name, super⟩, inside, rfl⟩ := List.mem_map.mp listed
  obtain ⟨c, looked, built⟩ := boot (Bootstrap.throwable name super)
    (List.mem_append_right _ (List.mem_map_of_mem inside)) (.inr listed)
  have reads := ClassSpec.build_reads built
  refine ⟨c, looked, ?_⟩
  by_cases top : name = "java/lang/Throwable"
  · subst top
    have read : (Bootstrap.throwable "java/lang/Throwable" super).fields.mapM
        (FieldSpec.build "java/lang/Throwable") = .ok [messageField] := by rfl
    exact .inl (Except.ok.inj (read.symm.trans reads.fields))
  · have none : (Bootstrap.throwable name super).fields = [] := by
      simp [Bootstrap.throwable, top]
    have fields := reads.fields
    rw [none] at fields
    exact .inr ⟨super, (throwables_closed _ inside).resolve_left top, (Except.ok.inj fields).symm,
      reads.interfaces, reads.superName⟩

/-- The message of an exception is declared by a class on the way up from that of the exception. -/
theorem Bootstrapped.messageWithin (boot : lib.Bootstrapped) : ∀ {n : Nat} {name : String},
    name ∈ Bootstrap.throwables.map Prod.fst →
    lib.findFieldWithin n name "detailMessage" = some f →
    f.decl = messageField ∧ ∃ d ∈ lib.chainWithin n name, messageField ∈ d.fields
  | 0, _, _, found => nomatch found
  | n + 1, name, listed, found => by
      obtain ⟨c, looked, fields | ⟨super, listed, fields, interfaces, above⟩⟩ :=
        boot.throwable listed
      · rw [findFieldWithin_own looked (field?_of_single fields) found]
        exact ⟨rfl, c, mem_chainWithin_self looked, fields ▸ List.mem_singleton_self _⟩
      · obtain ⟨k, shorter, found⟩ := findFieldWithin_above looked fields interfaces above found
        obtain ⟨message, d, inside, declared⟩ := boot.messageWithin listed found
        have inside := mem_chainWithin_mono (Nat.le_of_lt_succ shorter) inside
        exact ⟨message, d, mem_chainWithin_above looked above inside, declared⟩
  termination_by n => n

theorem mem_throwables_of_raised (raised : Throwable.Raised name) :
    name ∈ Bootstrap.throwables.map Prod.fst := by
  cases raised <;> repeat (first | exact .head _ | apply List.Mem.tail)

/-- The message of an exception is a field of objects with a reference type. -/
theorem Bootstrapped.message (boot : lib.Bootstrapped) (raised : Throwable.Raised className)
    (found : lib.findField className "detailMessage" = some f) :
    f.decl.flags.isStatic = false ∧ f.decl.type.isReference = true := by
  rw [(boot.messageWithin (mem_throwables_of_raised raised) found).1]
  exact ⟨Flags.isStatic_none, rfl⟩

end Library

/-- The fields that are remembered are the ones that the library finds. -/
def World.MemoAgrees (w : World) : Prop :=
  ∀ {key f}, w.fieldMemo.lookup key = some f → w.library.findField key.1 key.2 = some f

end JavaMachine
