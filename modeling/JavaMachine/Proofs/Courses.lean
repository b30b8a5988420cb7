import JavaMachine.Bootstrap
import JavaMachine.Proofs.PendingChanges

/-!
# The course of an initialisation

The history of a machine tells how the initialisation of every class went.  `Course` is all that it
may tell about one class: nothing; or a thread claimed the class, the initialiser was called at most
once, and then the initialisation ended one way or the other.  A course that is not empty begins
with a class that is uninitialised and ends with one that is not, so two courses in a row are a
course again, and while a class is being initialised nothing at all happens to it from elsewhere.

`World.Lawful` says it of two worlds, for all classes and for the uses of classes in between.
Between the claim of a class and the end of its initialisation a machine is not in a lawful relation
to where it started, because the claim has to be followed up; `World.Amid` is the relation for that
time, in which one class stands apart and its entries are given.

What a machine does by the name of a class has to happen to the class that is meant.  That is so in
a world in which every class has a place and every field that is remembered still belongs to the
class of its name (`World.Sane`).  A host that registers its classes before it runs them has such a
world, and it stays so.
-/

namespace JavaMachine

/-! ## What a history tells about a class -/

namespace Occurrence

/-- The initialisation of a class moved, or its initialiser was called. -/
def concerns (id : Nat) : Occurrence → Bool
  | moved c _ _ | started c _ => c == id
  | _ => false

/-- The initialiser of a class was called. -/
def starts (id : Nat) : Occurrence → Bool
  | started c _ => c == id
  | _ => false

theorem concerns_of_starts {id : Nat} {o : Occurrence} (h : o.starts id = true) :
    o.concerns id = true := by
  cases o <;> simp_all [starts, concerns]

/-- An occurrence is in order: an initialiser is called when the superclass, if the library has it,
has left the first state, and a class is used when it is initialised or its user is initialising
it. -/
def Proper (lib : Library) : Occurrence → Prop
  | started id superclass =>
      superclass ≠ some .uninitialised ∧ ∃ c ∈ lib.classes, c.id = id ∧
        superclass.isSome = (c.superName.bind lib.find?).isSome
  | used _ thread state => state = .initialised ∨ state = .initialising thread
  | _ => True

end Occurrence

/-- What a history may tell about a class, newest first, between two states of its
initialisation. -/
inductive Course (id : Nat) : InitState → List Occurrence → InitState → Prop
  /-- Nothing happened. -/
  | still (s : InitState) : Course id s [] s
  /-- A thread claimed the class. -/
  | claimed (t : ThreadId) :
      Course id .uninitialised [.moved id .uninitialised (.initialising t)] (.initialising t)
  /-- It also called the initialiser. -/
  | started (t : ThreadId) (superclass : Option InitState) :
      Course id .uninitialised
        [.started id superclass, .moved id .uninitialised (.initialising t)] (.initialising t)
  /-- The initialisation succeeded. -/
  | succeeded {t : ThreadId} {entries : List Occurrence} :
      Course id .uninitialised entries (.initialising t) →
      Course id .uninitialised (.moved id (.initialising t) .initialised :: entries) .initialised
  /-- The initialisation failed. -/
  | failed {t : ThreadId} {entries : List Occurrence} :
      Course id .uninitialised entries (.initialising t) →
      Course id .uninitialised (.moved id (.initialising t) .erroneous :: entries) .erroneous

namespace Course

variable {id : Nat} {a b c : InitState} {entries later : List Occurrence}

/-- A class that is claimed, or that has come to an end, stays as it is. -/
theorem still_of_ne (h : Course id a entries b) (claimed : a ≠ .uninitialised) :
    entries = [] ∧ b = a := by
  cases h with
  | still => exact ⟨rfl, rfl⟩
  | claimed => exact absurd rfl claimed
  | started => exact absurd rfl claimed
  | succeeded => exact absurd rfl claimed
  | failed => exact absurd rfl claimed

/-- A course has happened when the class is claimed. -/
theorem nil_or_ne (h : Course id a entries b) : (entries = [] ∧ b = a) ∨ b ≠ .uninitialised := by
  cases h with
  | still => exact .inl ⟨rfl, rfl⟩
  | claimed => exact .inr (by simp)
  | started => exact .inr (by simp)
  | succeeded => exact .inr (by simp)
  | failed => exact .inr (by simp)

theorem trans (first : Course id a entries b) (second : Course id b later c) :
    Course id a (later ++ entries) c := by
  obtain ⟨rfl, rfl⟩ | claimed := first.nil_or_ne
  · rwa [List.append_nil]
  · obtain ⟨rfl, rfl⟩ := second.still_of_ne claimed
    exact first

/-- The initialiser of a class is called at most once. -/
theorem starts_le_one (h : Course id a entries b) : entries.countP (·.starts id) ≤ 1 := by
  induction h with
  | still => exact Nat.zero_le 1
  | claimed => simp [Occurrence.starts]
  | started => simp [Occurrence.starts]
  | succeeded _ ih => simpa [Occurrence.starts] using ih
  | failed _ ih => simpa [Occurrence.starts] using ih

end Course

/-! ## Sane worlds -/

/-- Every class has a place, its fields bear its name, and a field that is remembered belongs to the
class that its name stands for. -/
structure World.Sane (w : World) : Prop where
  /-- Every class has a state. -/
  states : w.classStates.size = w.library.classes.length
  /-- Every class has its place. -/
  places : ∀ c ∈ w.library.classes, c.id < w.library.classes.length
  /-- The fields of a class name it. -/
  fields : ∀ c ∈ w.library.classes, ∀ f ∈ c.fields, f.className = c.name
  /-- The fields that are remembered belong to the classes that they name. -/
  memo : ∀ key f, w.fieldMemo.lookup key = some f →
    ∃ c, w.library.find? f.decl.className = some c ∧ c.id = f.owner.id

/-- A field that a class declares belongs to it. -/
theorem LoadedClass.owner_of_field? {c : LoadedClass} {name : String} {f : FieldRef}
    (h : c.field? name = some f) : f.owner = c.ref ∧ f.decl ∈ c.fields := by
  simp only [field?, Option.bind_eq_bind, Option.bind_eq_some_iff] at h
  obtain ⟨index, -, decl, found, declared⟩ := h
  cases declared
  exact ⟨rfl, List.mem_of_getElem? found⟩

/-- The search for a field ends at the class that the field names. -/
theorem Library.owner_of_findFieldWithin {lib : Library}
    (named : ∀ c ∈ lib.classes, ∀ f ∈ c.fields, f.className = c.name) :
    ∀ {n : Nat} {className name : String} {f : FieldRef},
      lib.findFieldWithin n className name = some f →
      ∃ c, lib.find? f.decl.className = some c ∧ c.id = f.owner.id
  | 0, _, _, _, h => nomatch h
  | n + 1, className, name, f, h => by
      simp only [findFieldWithin, Option.bind_eq_bind, Option.bind_eq_some_iff,
        Option.orElse_eq_orElse, Option.orElse_eq_or, Option.or_eq_some_iff] at h
      obtain ⟨c, found, own | ⟨-, inherited⟩⟩ := h
      · obtain ⟨owner, declared⟩ := LoadedClass.owner_of_field? own
        refine ⟨c, ?_, congrArg ClassRef.id owner.symm⟩
        rw [named c (mem_of_find? found) _ declared, name_of_find? found]
        exact found
      · obtain above | ⟨-, above⟩ := inherited
        · obtain ⟨i, -, above⟩ := List.exists_of_findSome?_eq_some above
          exact owner_of_findFieldWithin named above
        · obtain ⟨superName, -, above⟩ := above
          exact owner_of_findFieldWithin named above

namespace World

variable {w w' : World}

/-- A world stays sane while its classes stay as they are. -/
theorem Sane.of_memo (sane : w.Sane) (library : w'.library = w.library)
    (classes : w'.classStates.size = w.classStates.size)
    (memo : ∀ key f, w'.fieldMemo.lookup key = some f →
      w.fieldMemo.lookup key = some f ∨ w.library.findField key.1 key.2 = some f) : w'.Sane where
  states := by rw [classes, library, sane.states]
  places := by rw [library]; exact sane.places
  fields := by rw [library]; exact sane.fields
  memo key f h := by
    rw [library]
    obtain known | found := memo key f h
    · exact sane.memo key f known
    · exact Library.owner_of_findFieldWithin sane.fields found

theorem Sane.placed (sane : w.Sane) {c : LoadedClass} (known : c ∈ w.library.classes) :
    c.id < w.classStates.size := sane.states ▸ sane.places c known

theorem Sane.of_sameClasses (sane : w.Sane) (h : w.SameClasses w') : w'.Sane :=
  sane.of_memo h.library h.classes h.memo

end World

/-! ## Setting up a world -/

/-- A sane world in which no field is remembered stays one. -/
def Machine.Prepares (m m' : Machine) : Prop :=
  m.world.Sane ∧ m.world.fieldMemo = [] → m'.world.Sane ∧ m'.world.fieldMemo = []

instance : IsPreorder Machine Machine.Prepares where
  refl _ := id
  trans _ _ _ first second := second ∘ first

namespace Bootstrap

open Exec

/-- A class that can be read gets the next place. -/
theorem define_run {spec : ClassSpec} {decl : ClassDecl} {s : Settings} {m : Machine}
    (built : spec.build = .ok decl) : ∃ events, define spec s m =
      .ok { decl with id := m.world.library.classes.length } { m with world := { m.world with
        events, library := (m.world.library.register decl).1
        classStates := m.world.classStates.push decl.freshState } } := by
  obtain ⟨events, told⟩ := report_run (s := s) (m := m) (.registeredClass decl.name)
  refine ⟨events, ?_⟩
  rw [define, built]
  show register decl s m = _
  rw [register, bind_of_ok library_run]
  exact bind_of_ok told

/-- A class that a host defines gets the next place. -/
theorem define_prepares (spec : ClassSpec) : Keeps Machine.Prepares (define spec) := by
  rintro s m ⟨sane, empty⟩
  cases built : spec.build with
  | error e =>
      have run : define spec s m = .error (.fault e) m := by
        rw [define, built]
        rfl
      rw [after_of_error run]
      exact ⟨sane, empty⟩
  | ok decl =>
      obtain ⟨events, run⟩ := define_run (s := s) (m := m) built
      rw [after_of_ok run]
      refine ⟨⟨?_, ?_, ?_, ?_⟩, empty⟩
      · simp [Library.register, sane.states]
      · rintro c (_ | ⟨_, old⟩)
        · exact Nat.lt_succ_self _
        · exact Nat.lt_succ_of_lt (sane.places c old)
      · rintro c (_ | ⟨_, old⟩)
        · exact (ClassSpec.build_reads built).own
        · exact sane.fields c old
      · intro key f h
        rw [empty] at h
        cases h

/-- The world that a machine starts with is sane: it has the bootstrap classes. -/
theorem load_sane (s : Settings) (t : Thread) : (load.after s ⟨{}, t⟩).world.Sane := by
  have loading : Keeps Machine.Prepares load :=
    .forM_list (fun spec => (define_prepares spec).discard) classes
  have blank : World.Sane {} := ⟨rfl, nofun, nofun, nofun⟩
  exact (loading s ⟨{}, t⟩ ⟨blank, rfl⟩).1

end Bootstrap

namespace World

variable {w w' : World}

/-! ## Lawful worlds -/

/-- The classes of two worlds are the same, the second one is sane, and the history has grown by
entries that are in order. -/
structure Grows (w w' : World) (added : List Occurrence) : Prop where
  /-- The library is the same. -/
  library : w'.library = w.library
  /-- The second world is sane. -/
  sane : w'.Sane
  /-- The history has grown. -/
  history : w'.history = added ++ w.history
  /-- The new entries are in order. -/
  proper : ∀ o ∈ added, o.Proper w.library

theorem Grows.trans {a b c : World} {added later : List Occurrence} (first : a.Grows b added)
    (second : b.Grows c later) : a.Grows c (later ++ added) where
  library := second.library.trans first.library
  sane := second.sane
  history := by rw [second.history, first.history, List.append_assoc]
  proper o h := by
    obtain new | old := List.mem_append.mp h
    · exact first.library ▸ second.proper o new
    · exact first.proper o old

/-- The initialisation of every class between two worlds is a course. -/
def Lawful (w w' : World) : Prop :=
  ∃ added, w.Grows w' added ∧
    ∀ id, Course id (w.initState id) (added.filter (·.concerns id)) (w'.initState id)

theorem Lawful.sane (h : w.Lawful w') : w'.Sane := by
  obtain ⟨added, grows, -⟩ := h
  exact grows.sane

theorem Lawful.library (h : w.Lawful w') : w'.library = w.library := by
  obtain ⟨added, grows, -⟩ := h
  exact grows.library

theorem Lawful.of_sameClasses (sane : w.Sane) (h : w.SameClasses w') : w.Lawful w' := by
  refine ⟨[], ⟨h.library, sane.of_sameClasses h, h.history,
    fun _ none => nomatch none⟩, fun id => ?_⟩
  rw [h.inits id]
  exact .still _

theorem Lawful.refl (sane : w.Sane) : w.Lawful w := .of_sameClasses sane (.refl w)

theorem Lawful.trans {a b c : World} (first : a.Lawful b) (second : b.Lawful c) : a.Lawful c := by
  obtain ⟨added, grows, courses⟩ := first
  obtain ⟨later, grows', courses'⟩ := second
  refine ⟨later ++ added, grows.trans grows', fun id => ?_⟩
  rw [List.filter_append]
  exact (courses id).trans (courses' id)

/-- A class that is claimed stays as it is. -/
theorem Lawful.still (h : w.Lawful w') {id : Nat} (claimed : w.initState id ≠ .uninitialised) :
    w'.initState id = w.initState id := by
  obtain ⟨added, -, courses⟩ := h
  exact ((courses id).still_of_ne claimed).2

/-! ## Single entries -/

/-- A world with one more entry in its history. -/
def noting (w : World) (o : Occurrence) : World := { w with history := o :: w.history }

/-- A world in which the initialisation of a class has moved. -/
def moving (w : World) (id : Nat) (s : InitState) : World :=
  { w with
    classStates := w.classStates.modify id ({ · with init := s })
    history := .moved id (w.initState id) s :: w.history }

theorem initState_moving (w : World) (id : Nat) (s : InitState) (other : Nat) :
    (w.moving id s).initState other =
      if id = other ∧ id < w.classStates.size then s else w.initState other := by
  simp only [initState, moving, Array.getElem?_modify]
  by_cases same : id = other
  · subst same
    by_cases placed : id < w.classStates.size
    · simp [placed]
    · simp [placed]
  · simp [same]

theorem initState_moving_self {id : Nat} (placed : id < w.classStates.size) (s : InitState) :
    (w.moving id s).initState id = s := by
  rw [initState_moving, if_pos ⟨rfl, placed⟩]

theorem Grows.noting (sane : w.Sane) {o : Occurrence} (proper : o.Proper w.library) :
    w.Grows (w.noting o) [o] where
  library := rfl
  sane := sane.of_memo rfl rfl fun _ _ => .inl
  history := rfl
  proper _ h := List.mem_singleton.mp h ▸ proper

theorem Grows.moving (sane : w.Sane) (id : Nat) (s : InitState) :
    w.Grows (w.moving id s) [.moved id (w.initState id) s] where
  library := rfl
  sane := sane.of_memo rfl Array.size_modify fun _ _ => .inl
  history := rfl
  proper _ h := List.mem_singleton.mp h ▸ trivial

/-- An entry that is in order and about the initialisation of no class is lawful. -/
theorem Lawful.noting (sane : w.Sane) {o : Occurrence} (proper : o.Proper w.library)
    (other : ∀ id, o.concerns id = false) : w.Lawful (w.noting o) := by
  refine ⟨[o], .noting sane proper, fun id => ?_⟩
  rw [List.filter_cons_of_neg (by simp [other id])]
  exact .still _

/-! ## In the middle of an initialisation -/

/-- The initialisation of every class but one is a course between two worlds, and about that one the
history tells what is given. -/
def Amid (id : Nat) (entries : List Occurrence) (w w' : World) : Prop :=
  ∃ added, w.Grows w' added ∧ added.filter (·.concerns id) = entries ∧
    ∀ other ≠ id,
      Course other (w.initState other) (added.filter (·.concerns other)) (w'.initState other)

namespace Amid

variable {id : Nat} {entries : List Occurrence} {a : World}

theorem refl (sane : w.Sane) : Amid id [] w w :=
  ⟨[], ⟨rfl, sane, rfl, fun _ none => nomatch none⟩, rfl, fun _ _ => .still _⟩

theorem sane (h : Amid id entries w a) : a.Sane := by
  obtain ⟨added, grows, -⟩ := h
  exact grows.sane

theorem library (h : Amid id entries w a) : a.library = w.library := by
  obtain ⟨added, grows, -⟩ := h
  exact grows.library

/-- Once the class is claimed, nothing lawful concerns it. -/
theorem lawful (h : Amid id entries w a) (next : a.Lawful w')
    (claimed : a.initState id ≠ .uninitialised) : Amid id entries w w' := by
  obtain ⟨added, grows, told, courses⟩ := h
  obtain ⟨later, grows', courses'⟩ := next
  refine ⟨later ++ added, grows.trans grows', ?_, fun other distinct => ?_⟩
  · rw [List.filter_append, ((courses' id).still_of_ne claimed).1, told, List.nil_append]
  · rw [List.filter_append]
    exact (courses other distinct).trans (courses' other)

/-- One more entry about the class. -/
theorem step {o : Occurrence} (h : Amid id entries w a) (grows : a.Grows w' [o])
    (about : ∀ other, o.concerns other = (id == other))
    (same : ∀ other ≠ id, w'.initState other = a.initState other) :
    Amid id (o :: entries) w w' := by
  obtain ⟨added, grows', told, courses⟩ := h
  refine ⟨o :: added, grows'.trans grows, ?_, fun other distinct => ?_⟩
  · rw [List.filter_cons_of_pos (by rw [about]; exact beq_self_eq_true id), told]
  · rw [List.filter_cons_of_neg (by rw [about]; simpa using Ne.symm distinct), same other distinct]
    exact courses other distinct

theorem noting {superclass : Option InitState} (h : Amid id entries w a)
    (proper : (Occurrence.started id superclass).Proper a.library) :
    Amid id (.started id superclass :: entries) w (a.noting (.started id superclass)) :=
  h.step (.noting h.sane proper) (fun _ => rfl) fun _ _ => rfl

theorem moving (h : Amid id entries w a) (s : InitState) :
    Amid id (.moved id (a.initState id) s :: entries) w (a.moving id s) := by
  refine h.step (.moving h.sane id s) (fun _ => rfl) fun other distinct => ?_
  rw [initState_moving, if_neg (fun both => distinct both.1.symm)]

/-- The initialisation of the class is a course, too. -/
theorem closed (h : Amid id entries w a)
    (course : Course id (w.initState id) entries (a.initState id)) : w.Lawful a := by
  obtain ⟨added, grows, told, courses⟩ := h
  refine ⟨added, grows, fun other => ?_⟩
  by_cases same : other = id
  · subst same
    rwa [told]
  · exact courses other same

end Amid

end World

end JavaMachine
