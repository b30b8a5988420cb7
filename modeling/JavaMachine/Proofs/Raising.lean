import JavaMachine.Proofs.FieldLookup
import JavaMachine.Proofs.Shortage

/-!
# Exceptions that can be raised

An exception can always be raised when the library has the classes of strings and exceptions that
the machine brings along and the fields that are remembered are those that the library finds: its
class is known, its message is a field that it has, and a string can be made for it unless there is
no memory, when the message is left out.  If there is room for one more entry, it is of the class
that was asked for.  In a heap without a capacity there always is.
-/

namespace JavaMachine

/-! ## Fields that the machine itself stores into -/

namespace Library

variable {lib : Library} {c : LoadedClass} {f : FieldRef} {name : String}

/-- The message of an exception that the machine raises is a field of it. -/
theorem Bootstrapped.message_held (boot : lib.Bootstrapped) (raised : Throwable.Raised name)
    (looked : lib.find? name = some c) (found : lib.findField name "detailMessage" = some f) :
    f.decl ∈ lib.instanceFields c := by
  obtain ⟨message, d, listed, declared⟩ :=
    boot.messageWithin (mem_throwables_of_raised raised) found
  rw [message]
  exact mem_instanceFields looked listed declared Flags.isStatic_none

end Library

/-- A world has what exceptions need: the classes of strings and exceptions are those that the
machine brings along, what is remembered is what the library finds, and the books of the heap are in
order. -/
structure World.Stocked (w : World) : Prop where
  /-- The classes of strings and exceptions are known. -/
  boot : w.library.Bootstrapped
  /-- What is remembered is what the library finds. -/
  memo : w.MemoAgrees
  /-- The books of the heap are in order. -/
  arena : w.heap.Arena

/-- What exceptions need stays there. -/
theorem World.Stocked.stirsMemory {w w' : World} (stocked : w.Stocked) (stirs : w.StirsMemory w') :
    w'.Stocked where
  boot := stirs.library.symm ▸ stocked.boot
  memo {key f} known := by
    rw [stirs.library]
    exact (stirs.memo key f known).elim stocked.memo id
  arena := stirs.stirs.arena stocked.arena

/-- The memory of a machine is enough for every exception: the classes of strings and exceptions are
those that the machine brings along, what is remembered is what the library finds, and the heap has
no capacity. -/
structure World.Ample (w : World) : Prop where
  /-- The classes of strings and exceptions are known. -/
  boot : w.library.Bootstrapped
  /-- What is remembered is what the library finds. -/
  memo : ∀ {key f}, w.fieldMemo.lookup key = some f → w.library.findField key.1 key.2 = some f
  /-- The heap has no capacity. -/
  unbounded : w.heap.capacity = none
  /-- The books of the heap are in order. -/
  arena : w.heap.Arena

/-- Between two machines nothing about the thread has changed but the exception that is pending. -/
def Machine.Pends (m m' : Machine) : Prop := ∃ pending, m'.thread = { m.thread with pending }

instance : AllowsRaise Machine.Pends where
  refl m := ⟨m.thread.pending, rfl⟩
  trans a b c first second := by
    obtain ⟨_, first⟩ := first
    obtain ⟨pending, second⟩ := second
    exact ⟨pending, by rw [second, first]⟩
  world {m _} _ := ⟨m.thread.pending, rfl⟩
  raise pending := ⟨pending, rfl⟩

namespace Exec

variable {s : Settings} {m m' : Machine} {cls : LoadedClass} {className name : String}

/-- Where there is no memory for an object it is refused. -/
theorem newInstance_refused (full : ¬ m.world.heap.HasRoom 1) (cls : LoadedClass) :
    Refused (newInstance cls false) s m := by
  obtain ⟨capacity, refused⟩ := Heap.insert_refused full (.object cls
    ((m.world.library.instanceFields cls).map fun g => ⟨g, Value.defaultOf g.type⟩))
  rw [Refused, newInstance_eq]
  exact allocate_refused refused rfl

/-- Where there is no memory for an entry the characters of a text are refused. -/
theorem newCharacters_refused (full : ¬ m.world.heap.HasRoom 1) (text : String) :
    Refused (newCharacters text) s m := by
  obtain ⟨capacity, refused⟩ := Heap.insert_refused full (.characters text)
  exact (allocate_refused (g := (·.allocateArrayOf .char "[C"
    ((Text.units text).map Value.char).toArray)) refused rfl).bind

/-- A string is made and every entry that was there stays as it is, or there is no memory for it. -/
theorem newString_settles (stocked : m.world.Stocked) (text : String) :
    (∃ r m', newString text s m = .ok r m' ∧
      ∀ r' c, m.world.heap.cell? r' = some c → m'.world.heap.cell? r' = some c) ∨
    ∃ e m', newString text s m = .error (.fault e) m' ∧ e.isOutOfMemory = true := by
  obtain ⟨boot, memo, arena⟩ := stocked
  by_cases room : m.world.heap.HasRoom 2
  · obtain ⟨r, m', made⟩ := newString_granted (s := s) boot memo arena room text
    obtain ⟨cls, f, chars, -, -, extended, -⟩ := newString_ok made arena
    exact .inl ⟨r, m', made, fun _ _ => extended.kept⟩
  · right
    obtain ⟨cls, rest, looked, found, -⟩ := boot.layout
    have known : findClass stringClassName s m = .ok cls m := findClass_of_find? looked
    obtain ⟨m₁, resolved, heap₁, -⟩ :=
      resolveField_finds (s := s) memo stringClassName "value"
    rw [found] at resolved
    rw [← heap₁] at room
    rw [newString, bind_of_ok known, bind_of_ok resolved]
    dsimp only
    by_cases first : m₁.world.heap.HasRoom 1
    · obtain ⟨chars, m₂, filled, made, -⟩ := newCharacters_granted (s := s) (n := 0) first text
      have full : ¬ m₂.world.heap.HasRoom 1 := fun more => room fun capacity bounded => by
        have enough := more capacity ((Heap.insert_limits made).1.trans bounded)
        rw [Heap.insert_live made] at enough
        omega
      obtain ⟨e, m₃, refused, short, -⟩ := newInstance_refused (s := s) full cls
      exact ⟨e, m₃, by rw [bind_of_ok filled, bind_of_error refused], short⟩
    · obtain ⟨e, m₂, refused, short, -⟩ := newCharacters_refused (s := s) first text
      exact ⟨e, m₂, bind_of_error refused, short⟩

/-- What is left of raising an exception when it has been made: it is given its message and becomes
the pending one. -/
def finishRaise (exception : Handle) (className : String) : Option String → Exec Unit
  | none => setPending exception
  | some message => do
      attachMessage exception className message
      setPending exception

/-- Where there is room for it an exception of a class that the library has is made first. -/
theorem raise_roomy (room : m.world.heap.HasRoom 1)
    (looked : m.world.library.find? className = some cls)
    (other : className ≠ Throwable.outOfMemoryError) (message : Option String) :
    ∃ exception events heap,
      m.world.heap.allocateObject cls (m.world.library.instanceFields cls) false =
        .ok (exception, heap) ∧
      raise className message s m = finishRaise exception className message s
        { m with world := { m.world with events, heap } } := by
  obtain ⟨events, told⟩ :=
    report_run (s := s) (m := m) (.raising className (message.getD ""))
  obtain ⟨exception, heap, made, -, created⟩ := newInstance_granted (s := s) (n := 0)
    (m := { m with world := { m.world with events } }) room cls false
  have granted : orOutOfMemory (newInstance cls false) s
      { m with world := { m.world with events } } =
        .ok (some exception) { m with world := { m.world with events, heap } } := by
    rw [orOutOfMemory, bind_of_ok (attempt_of_ok created)]
    rfl
  have known : findClass className s { m with world := { m.world with events } } = .ok cls _ :=
    findClass_of_find? looked
  have ordinary : ¬ (className == Throwable.outOfMemoryError) = true := by simpa using other
  refine ⟨exception, events, heap, made, ?_⟩
  unfold raise
  rw [if_neg ordinary, bind_of_ok told, bind_of_ok known, bind_of_ok granted]
  cases message <;> rfl

/-- An exception whose class the library lacks is not raised. -/
theorem raise_lacking (missing : m.world.library.find? className = none)
    (other : className ≠ Throwable.outOfMemoryError) (message : Option String) :
    ∃ events, raise className message s m = .error (.fault (.classNotFound className))
      { m with world := { m.world with events } } := by
  obtain ⟨events, told⟩ :=
    report_run (s := s) (m := m) (.raising className (message.getD ""))
  have unknown : findClass className s { m with world := { m.world with events } } =
      .error (.fault (.classNotFound className)) { m with world := { m.world with events } } := by
    rw [findClass, bind_of_ok library_run, Library.find, missing]
    rfl
  refine ⟨events, ?_⟩
  rw [raise, if_neg (by simpa using other), bind_of_ok told, bind_of_error unknown]

/-- What was raised is of the class that was asked for if there was room for it, and it is the
memory error otherwise.  Nothing else has changed about the thread. -/
theorem raise_pends (arena : m.world.heap.Arena) [raised : Throwable.Raised className]
    (other : className ≠ Throwable.outOfMemoryError) {message : Option String}
    (h : raise className message s m = .ok () m') : ∃ exception,
      m'.thread = { m.thread with pending := some exception } ∧
      (m.world.heap.HasRoom 1 → m'.world.heap.typeName (.object exception) = .ok className) ∧
      (¬ m.world.heap.HasRoom 1 →
        m'.world.heap.typeName (.object exception) = .ok Throwable.outOfMemoryError) := by
  obtain ⟨_, same⟩ : m.Pends m' := (raise_keeps className message).of_ok h
  have thread {exception : Handle} (pending : m'.thread.pending = some exception) :
      m'.thread = { m.thread with pending := some exception } := by
    rw [← pending, same]
  obtain ⟨full, starved⟩ | ⟨room, exception, pending, named⟩ := raise_cases other h arena
  · obtain ⟨exception, pending, named⟩ := starved.outOfMemory
    exact ⟨exception, thread pending, fun room => absurd room full, fun _ => named⟩
  · exact ⟨exception, thread pending, fun _ => named, fun full => absurd room full⟩

/-- In a heap without a capacity what was raised is of the class that was asked for. -/
theorem raise_typeName (free : m.world.heap.capacity = none) (arena : m.world.heap.Arena)
    [raised : Throwable.Raised className] (other : className ≠ Throwable.outOfMemoryError)
    {message : Option String} (h : raise className message s m = .ok () m') :
    ∃ exception, m'.thread.pending = some exception ∧
      m'.world.heap.typeName (.object exception) = .ok className := by
  obtain ⟨full, -⟩ | ⟨-, exception⟩ := raise_cases other h arena
  · exact absurd (.of_unbounded free 1) full
  · exact exception

/-- A message can be put into an exception that was just made, or there is no memory for it and it
is left out. -/
theorem attachMessage_settles (stocked : m.world.Stocked) (raised : Throwable.Raised className)
    (looked : m.world.library.find? className = some cls) {exception : Handle}
    (new : m.world.heap.entry exception = .ok (.object cls
      ((m.world.library.instanceFields cls).map fun g => ⟨g, Value.defaultOf g.type⟩)))
    (message : String) :
    ∃ m', attachMessage exception className message s m = .ok () m' := by
  obtain ⟨m₁, resolved, heap₁, -⟩ :=
    resolveField_finds (s := s) stocked.memo className "detailMessage"
  have first : m.SameThreadStirsMemory m₁ := (resolveField_keeps _ _).of_ok resolved
  rw [attachMessage, bind_of_ok resolved]
  cases found : m.world.library.findField className "detailMessage" with
  | none => exact ⟨m₁, rfl⟩
  | some f =>
      dsimp only
      obtain ⟨text, m₂, made, kept⟩ | ⟨e, m₂, refused, short⟩ :=
        newString_settles (s := s) (stocked.stirsMemory first.world) message
      · rw [bind_of_ok (attempt_of_ok made)]
        obtain ⟨serial, cell⟩ := Heap.entry_eq_ok.mp new
        have there := Heap.entry_eq_ok.mpr ⟨serial, kept _ _ (heap₁ ▸ cell)⟩
        have held := Slot.holds_default (stocked.boot.message_held raised looked found)
        exact ⟨_, setField_of_ok (Heap.setField_held there held _)⟩
      · rw [bind_of_ok (attempt_of_fault refused)]
        simp only [short, if_true]
        exact ⟨m₂, rfl⟩

/-- In a heap without a capacity an exception without a message is made and becomes the pending
one. -/
theorem raise_silent (ample : m.world.Ample) [raised : Throwable.Raised className]
    (other : className ≠ Throwable.outOfMemoryError) :
    ∃ exception events heap c,
      raise className none s m = .ok () ⟨{ m.world with events, heap },
        { m.thread with pending := some exception }⟩ ∧
      heap.classOf exception = .ok c ∧ c.name = className := by
  obtain ⟨c, looked, -⟩ := ample.boot.throwable (Library.mem_throwables_of_raised raised)
  obtain ⟨exception, events, heap, made, run⟩ :=
    raise_roomy (s := s) (.of_unbounded ample.unbounded 1) looked other none
  have new : heap.entry exception = .ok (.object c
      ((m.world.library.instanceFields c).map fun g => ⟨g, Value.defaultOf g.type⟩)) :=
    Heap.entry_eq_ok.mpr ⟨m.world.heap.made, by rw [(ample.arena.grown made).cells, if_pos rfl]⟩
  refine ⟨exception, events, heap, c, run, ?_, Library.name_of_find? looked⟩
  rw [Heap.classOf, Heap.object_eq_ok.mpr new]
  rfl

/-- An exception can be raised, or the memory error in its place. -/
theorem raise_made (stocked : m.world.Stocked) [raised : Throwable.Raised className]
    (other : className ≠ Throwable.outOfMemoryError) (message : Option String) :
    ∃ m', raise className message s m = .ok () m' := by
  have listed := Library.mem_throwables_of_raised raised
  obtain ⟨cls, looked, -⟩ := stocked.boot.throwable listed
  by_cases room : m.world.heap.HasRoom 1
  · obtain ⟨exception, events, heap, made, run⟩ := raise_roomy (s := s) room looked other message
    rw [run]
    cases message with
    | none => exact ⟨_, rfl⟩
    | some message =>
        have cells := (stocked.arena.grown made).cells
        have new := Heap.entry_eq_ok.mpr ⟨m.world.heap.made, by rw [cells, if_pos rfl]⟩
        have stocked' : World.Stocked { m.world with events, heap } :=
          ⟨stocked.boot, stocked.memo, stocked.arena.insert made⟩
        obtain ⟨m', attached⟩ := attachMessage_settles (s := s)
          (m := { m with world := { m.world with events, heap } }) stocked' raised looked new
          message
        rw [finishRaise, bind_of_ok attached]
        exact ⟨_, rfl⟩
  · obtain ⟨events, told⟩ :=
      report_run (s := s) (m := m) (.raising className (message.getD ""))
    let mid : Machine := { m with world := { m.world with events } }
    have known : findClass className s mid = .ok cls mid := findClass_of_find? looked
    have refused : Refused (newInstance cls false) s mid := newInstance_refused (m := mid) room cls
    obtain ⟨error, found, -⟩ :=
      stocked.boot.throwable (Library.mem_throwables_of_raised .outOfMemory)
    have equipped : mid.Equipped := Option.isSome_iff_exists.mpr ⟨error, found⟩
    obtain ⟨m', replaced, -⟩ := orOutOfMemory_refused refused equipped stocked.arena
    refine ⟨m', ?_⟩
    rw [raise, if_neg (by simpa using other), bind_of_ok told, bind_of_ok known,
      bind_of_ok replaced]
    rfl

end Exec
end JavaMachine
