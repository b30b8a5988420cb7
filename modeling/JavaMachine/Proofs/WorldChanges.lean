import JavaMachine.Proofs.Effect
import JavaMachine.Proofs.Stirring

/-!
# Changes of the world

Most of what a machine does concerns its world: it looks classes up, allocates, reports.
`World.SameClassesMonitors` says what all of this leaves alone: the library, the initialisation of
the classes, the monitors and the history.  `World.StirsMemory` says in addition what it does to the
memory.  The lemma of such a function holds of every relation that allows the memory to be stirred.
A function that only reports and looks up needs less of a relation: `AllowsReports`, or no more than
that it is a preorder.

A relation between machines bears the name of what is the same in both.  One is meant first,
`Machine.SameThread`.  The halt flag is part of it in one direction: nothing resets it.
-/

namespace JavaMachine

/-! ## What stays the same in a world -/

/-- Between two worlds the classes and their initialisation are the same, and nothing was added to
the history. -/
structure World.SameClasses (w w' : World) : Prop where
  /-- The library is the same. -/
  library : w'.library = w.library
  /-- As many classes have a state. -/
  classes : w'.classStates.size = w.classStates.size
  /-- The initialisation of every class has come as far. -/
  inits : ∀ id, w'.initState id = w.initState id
  /-- A field that is remembered was remembered before, or the library has it. -/
  memo : ∀ key f, w'.fieldMemo.lookup key = some f →
    w.fieldMemo.lookup key = some f ∨ w.library.findField key.1 key.2 = some f
  /-- The history is the same. -/
  history : w'.history = w.history

/-- Between two worlds the classes, their initialisation and the monitors are the same, no resolved
field was forgotten, and nothing was added to the history.  The second one is halted if the first
one is. -/
structure World.SameClassesMonitors (w w' : World) : Prop extends World.SameClasses w w' where
  /-- The monitors are the same. -/
  monitors : w'.monitors = w.monitors
  /-- A halted machine stays halted. -/
  halted : w.halted = true → w'.halted = true
  /-- Resolved fields stay what they are. -/
  known : ∀ {key f}, w.fieldMemo.lookup key = some f → w'.fieldMemo.lookup key = some f

namespace World

theorem SameClasses.refl (w : World) : w.SameClasses w :=
  ⟨rfl, rfl, fun _ => rfl, fun _ _ => .inl, rfl⟩

theorem SameClasses.trans {a b c : World} (first : a.SameClasses b) (second : b.SameClasses c) :
    a.SameClasses c where
  library := second.library.trans first.library
  classes := second.classes.trans first.classes
  inits id := (second.inits id).trans (first.inits id)
  memo key f h := by
    obtain known | found := second.memo key f h
    · exact first.memo key f known
    · rw [first.library] at found
      exact .inr found
  history := second.history.trans first.history

theorem SameClassesMonitors.refl (w : World) : w.SameClassesMonitors w := ⟨.refl w, rfl, id, id⟩

/-- Anything else may change. -/
theorem SameClassesMonitors.of_eq {w w' : World} (library : w'.library = w.library)
    (states : w'.classStates = w.classStates) (memo : w'.fieldMemo = w.fieldMemo)
    (history : w'.history = w.history) (monitors : w'.monitors = w.monitors)
    (halted : w.halted = true → w'.halted = true) : w.SameClassesMonitors w' where
  library := library
  classes := by rw [states]
  inits id := by rw [initState, states, initState]
  memo key f h := .inl (memo ▸ h)
  history := history
  monitors := monitors
  halted := halted
  known h := memo ▸ h

theorem SameClassesMonitors.trans {a b c : World} (first : a.SameClassesMonitors b)
    (second : b.SameClassesMonitors c) : a.SameClassesMonitors c :=
  ⟨first.toSameClasses.trans second.toSameClasses, second.monitors.trans first.monitors,
    second.halted ∘ first.halted, second.known ∘ first.known⟩

/-- Between two worlds the classes, their initialisation and the monitors are the same, and the
memory was stirred. -/
structure StirsMemory (w w' : World) : Prop extends SameClassesMonitors w w' where
  /-- The memory has changed step by step. -/
  stirs : w.Stirs w'

theorem StirsMemory.refl (w : World) : w.StirsMemory w := ⟨.refl w, .refl w⟩

theorem StirsMemory.trans {a b c : World} (first : a.StirsMemory b) (second : b.StirsMemory c) :
    a.StirsMemory c :=
  ⟨first.toSameClassesMonitors.trans second.toSameClassesMonitors, first.stirs.trans second.stirs⟩

/-- A change of anything else than the memory. -/
theorem StirsMemory.of_eq {w w' : World} (library : w'.library = w.library)
    (states : w'.classStates = w.classStates) (memo : w'.fieldMemo = w.fieldMemo)
    (history : w'.history = w.history) (monitors : w'.monitors = w.monitors)
    (heap : w'.heap = w.heap) (interned : w'.interned = w.interned)
    (crossings : w'.crossings = w.crossings) (lapses : w'.lapses = w.lapses)
    (halted : w.halted = true → w'.halted = true) : w.StirsMemory w' where
  toSameClassesMonitors := .of_eq library states memo history monitors halted
  stirs := .beside library states heap memo interned crossings lapses

/-- A change of the heap, and of what is counted about it. -/
theorem StirsMemory.of_heap {w : World} {heap : Heap} {crossings : Nat} {lapses : Lapses}
    (stirs : w.Stirs { w with heap, crossings, lapses }) :
    w.StirsMemory { w with heap, crossings, lapses } :=
  ⟨.of_eq rfl rfl rfl rfl rfl id, stirs⟩

/-- A field of the library is remembered. -/
theorem StirsMemory.of_remembered {w : World} {className name : String} {f : FieldRef}
    (new : w.fieldMemo.lookup (className, name) = none)
    (found : w.library.findField className name = some f) :
    w.StirsMemory { w with fieldMemo := ((className, name), f) :: w.fieldMemo } := by
  refine ⟨⟨⟨rfl, rfl, fun _ => rfl, fun key g h => ?_, rfl⟩, rfl, id, fun {key g} h => ?_⟩,
    .single (.remembered new found) rfl⟩
  · rw [List.lookup_cons] at h
    split at h
    next same =>
      rw [eq_of_beq same]
      exact .inr (found.trans h)
    next => exact .inl h
  · have other : (key == (className, name)) = false := by
      refine beq_false_of_ne fun same => ?_
      rw [same] at h
      exact nomatch new.symm.trans h
    rw [List.lookup_cons, other]
    exact h

end World

/-- A relation between machines that does not look at what is reported and counted, and allows a field
to be remembered. -/
class AllowsReports (R : Machine → Machine → Prop) : Prop extends IsPreorder Machine R where
  /-- Anything may be reported, and refusals and searches may be counted. -/
  reports : ∀ {m : Machine} (events : Array Event) (fieldWalks refusals : Nat),
    R m { m with world := { m.world with events, fieldWalks, refusals } }
  /-- A field that is not remembered may be, if it is the one that the library finds. -/
  remembers : ∀ {m : Machine} {className name : String} {f : FieldRef},
    m.world.fieldMemo.lookup (className, name) = none →
    m.world.library.findField className name = some f →
    R m { m with world := { m.world with
      fieldMemo := ((className, name), f) :: m.world.fieldMemo } }

/-- A relation between machines that allows the memory to be stirred. -/
class AllowsWorld (R : Machine → Machine → Prop) : Prop extends IsPreorder Machine R where
  /-- The memory may be stirred. -/
  world : ∀ {m : Machine} {w : World}, m.world.StirsMemory w → R m { m with world := w }

instance {R : Machine → Machine → Prop} [AllowsWorld R] : AllowsReports R where
  reports _ _ _ := AllowsWorld.world (.of_eq rfl rfl rfl rfl rfl rfl rfl rfl rfl id)
  remembers new found := AllowsWorld.world (.of_remembered new found)

/-- A relation between machines that does not look at the memory. -/
class AllowsMemory (R : Machine → Machine → Prop) : Prop extends AllowsWorld R where
  /-- Whatever is no class and no monitor may change. -/
  memory : ∀ {m : Machine} {w : World}, m.world.SameClassesMonitors w → R m { m with world := w }

/-! ## What stays the same in a machine -/

/-- The second machine has the thread of the first one, and is halted if the first one is. -/
structure Machine.SameThread (m m' : Machine) : Prop where
  /-- The thread is the same. -/
  thread : m'.thread = m.thread
  /-- A halted machine stays halted. -/
  halted : m.world.halted = true → m'.world.halted = true

instance : AllowsMemory Machine.SameThread where
  refl _ := ⟨rfl, id⟩
  trans _ _ _ first second :=
    ⟨second.thread.trans first.thread, second.halted ∘ first.halted⟩
  world stirs := ⟨rfl, stirs.halted⟩
  memory sameClasses := ⟨rfl, sameClasses.halted⟩

/-- The second machine has the thread and the monitors of the first one, and is halted if the first
one is. -/
structure Machine.SameThreadMonitors (m m' : Machine) : Prop extends Machine.SameThread m m' where
  /-- No monitor was entered or exited. -/
  monitors : m'.world.monitors = m.world.monitors

instance : AllowsMemory Machine.SameThreadMonitors where
  refl m := ⟨Std.Refl.refl m, rfl⟩
  trans _ _ _ first second :=
    ⟨IsTrans.trans _ _ _ first.toSameThread second.toSameThread,
      second.monitors.trans first.monitors⟩
  world stirs := ⟨AllowsWorld.world stirs, stirs.monitors⟩
  memory sameClasses := ⟨AllowsMemory.memory sameClasses, sameClasses.monitors⟩

/-- The second machine has the thread, the classes and the monitors of the first one. -/
structure Machine.SameThreadClasses (m m' : Machine) : Prop where
  /-- The thread is the same. -/
  thread : m'.thread = m.thread
  /-- The classes and the monitors are the same. -/
  world : m.world.SameClassesMonitors m'.world

instance : AllowsMemory Machine.SameThreadClasses where
  refl m := ⟨rfl, .refl m.world⟩
  trans _ _ _ first second :=
    ⟨second.thread.trans first.thread, first.world.trans second.world⟩
  world stirs := ⟨rfl, stirs.toSameClassesMonitors⟩
  memory sameClasses := ⟨rfl, sameClasses⟩

/-- The second machine has the thread of the first one, and in its world the memory was stirred. -/
structure Machine.SameThreadStirsMemory (m m' : Machine) : Prop where
  /-- The thread is the same. -/
  thread : m'.thread = m.thread
  /-- The memory was stirred. -/
  world : m.world.StirsMemory m'.world

instance : AllowsWorld Machine.SameThreadStirsMemory where
  refl m := ⟨rfl, .refl m.world⟩
  trans _ _ _ first second :=
    ⟨second.thread.trans first.thread, first.world.trans second.world⟩
  world stirs := ⟨rfl, stirs⟩

namespace Exec

/-! ### What every preorder is kept by -/

section

variable {R : Machine → Machine → Prop} [IsPreorder Machine R]

theorem get_keeps : Keeps R (get : Exec Machine) := fun _ m => Std.Refl.refl m

theorem read_keeps : Keeps R (read : Exec Settings) := fun _ m => Std.Refl.refl m

theorem world_keeps : Keeps R world := fun _ m => Std.Refl.refl m

theorem thread_keeps : Keeps R thread := fun _ m => Std.Refl.refl m

theorem heap_keeps : Keeps R heap := fun _ m => Std.Refl.refl m

theorem library_keeps : Keeps R library := fun _ m => Std.Refl.refl m

theorem isHalted_keeps : Keeps R isHalted := fun _ m => Std.Refl.refl m

theorem frame_keeps : Keeps R frame :=
  thread_keeps.bind fun t => .ofExcept t.frame

theorem peek_keeps (n : Nat) : Keeps R (peek n) :=
  thread_keeps.bind fun t => .ofExcept (t.peek n)

theorem findClass_keeps (name : String) : Keeps R (findClass name) :=
  library_keeps.bind fun lib => .ofExcept (lib.find name)

theorem initState_keeps (id : Nat) : Keeps R (initState id) :=
  world_keeps.bind fun _ => .pure _

/-- A store into a field of an object keeps a relation if the relation allows what is stored. -/
theorem setField_allowed {r : Handle} {f : FieldDecl} {v : Value} {s : Settings} {m : Machine}
    (writes : ∀ heap, m.world.heap.setField r f v = .ok heap →
      R m { m with world := { m.world with heap, lapses := m.world.lapses.leak v } }) :
    R m ((setField r f v).after s m) := by
  refine Keeps.bind_after (heap_keeps s m) fun h mid read => ?_
  cases read
  exact Keeps.ofExcept_after writes

end

/-! ### Reports -/

section

variable {α : Type} {R : Machine → Machine → Prop} [AllowsReports R]

theorem report_keeps (e : Event) : Keeps R (report e) := by
  intro s m
  obtain ⟨events, run⟩ := report_run (s := s) (m := m) e
  exact after_of_ok run ▸ AllowsReports.reports events m.world.fieldWalks m.world.refusals

theorem reportRefusal_keeps (e : Fault) : Keeps R (reportRefusal e) := by
  intro s m
  obtain ⟨events, run⟩ := reportRefusal_run (s := s) (m := m) e
  exact after_of_ok run ▸ AllowsReports.reports events m.world.fieldWalks _

/-- An allocation keeps a relation from a machine on if the relation allows what is made. -/
theorem allocate_allowed {g : Heap → Except Fault (Handle × Heap)} {s : Settings} {m : Machine}
    (made : ∀ r heap, g m.world.heap = .ok (r, heap) →
      R m { m with world := { m.world with heap } }) :
    R m ((allocate g).after s m) := by
  unfold allocate
  refine Keeps.bind_after (heap_keeps s m) fun h mid read => ?_
  cases read
  split
  next r heap done => exact Keeps.bind_after (made r heap done) fun _ _ _ => Keeps.pure _ _ _
  next => exact ((reportRefusal_keeps _).bind fun _ => .fail _) s m

theorem checkLength_keeps (length : Nat) : Keeps R (checkLength length) := by
  unfold checkLength
  refine heap_keeps.bind fun h => ?_
  split
  · exact .pure _
  · exact (reportRefusal_keeps _).bind fun _ => .fail _

/-- What is searched for is the field that is remembered, or else the one that the library finds, and
all that changes are the memo, the number of searches and the reports. -/
theorem resolveField_run (className name : String) {s : Settings} {m : Machine} :
    ∃ events fieldWalks fieldMemo, resolveField className name s m =
      .ok ((m.world.fieldMemo.lookup (className, name)).or (m.world.library.findField className name))
        { m with world := { m.world with events, fieldWalks, fieldMemo } } := by
  rw [resolveField, bind_of_ok world_run]
  cases known : m.world.fieldMemo.lookup (className, name) with
  | some f => exact ⟨_, _, _, rfl⟩
  | none =>
      simp only [bind_of_ok (modifyWorld_run _), bind_of_ok library_run]
      cases found : m.world.library.findField className name with
      | none => exact ⟨_, _, _, rfl⟩
      | some f =>
          obtain ⟨events, told⟩ := report_run (s := s)
            (m := { m with world := { m.world with fieldWalks := m.world.fieldWalks + 1 } })
            (.resolvedField className name f.decl.className)
          simp only [bind_of_ok told, bind_of_ok (modifyWorld_run _)]
          exact ⟨_, _, _, rfl⟩

theorem resolveField_keeps (className name : String) :
    Keeps R (resolveField className name) := by
  intro s m
  refine Keeps.bind_after (world_keeps s m) fun w mid read => ?_
  cases read
  cases known : m.world.fieldMemo.lookup (className, name) with
  | some f => exact Keeps.pure _ s m
  | none =>
      have counted := AllowsReports.reports (R := R) (m := m) m.world.events
        (m.world.fieldWalks + 1) m.world.refusals
      refine Keeps.bind_after counted fun _ mid searched => ?_
      cases searched
      refine Keeps.bind_after (library_keeps s _) fun lib mid read => ?_
      cases read
      cases found : m.world.library.findField className name with
      | none => exact Keeps.pure _ s _
      | some f =>
          refine Keeps.bind_after (report_keeps _ s _) fun _ mid told => ?_
          obtain ⟨events, reported⟩ := report_run (s := s)
            (m := { m with world := { m.world with fieldWalks := m.world.fieldWalks + 1 } })
            (.resolvedField className name f.decl.className)
          cases reported.symm.trans told
          exact Keeps.bind_after (AllowsReports.remembers known found) fun _ _ _ => Keeps.pure _ _ _

end

/-! ### The world -/

variable {α : Type} {R : Machine → Machine → Prop} [AllowsWorld R]

theorem modifyWorld_keeps {g : World → World} (hg : ∀ w : World, w.StirsMemory (g w)) :
    Keeps R (modifyWorld g) := fun _ m => AllowsWorld.world (hg m.world)

/-- What only stirs the memory keeps every relation that allows that. -/
theorem Keeps.of_stirsMemory {x : Exec α} (hx : Keeps Machine.SameThreadStirsMemory x) :
    Keeps R x := by
  intro s m
  obtain ⟨thread, world⟩ := hx s m
  have same : x.after s m = { m with world := (x.after s m).world } := by
    rw [← thread]
  rw [same]
  exact AllowsWorld.world world

theorem setStatic_keeps {R : Machine → Machine → Prop} [AllowsMemory R] (f : FieldRef)
    (v : Value) : Keeps R (setStatic f v) := by
  intro s m
  refine AllowsMemory.memory
    ⟨⟨rfl, Array.size_modify, fun id => ?_, fun _ _ => .inl, rfl⟩, rfl, id, id⟩
  simp only [World.initState, Array.getElem?_modify]
  split
  · cases m.world.classStates[id]? <;> rfl
  · rfl

theorem halt_keeps : Keeps R halt :=
  (report_keeps _).bind fun _ =>
    modifyWorld_keeps fun _ => .of_eq rfl rfl rfl rfl rfl rfl rfl rfl rfl fun _ => rfl

/-! ### Memory -/

theorem uncounted_keeps {x : Exec α} (hx : Keeps R x) : Keeps R (uncounted x) := by
  refine world_keeps.bind fun _ => hx.attempt.bind fun result => ?_
  refine .bind (modifyWorld_keeps fun _ => .of_eq rfl rfl rfl rfl rfl rfl rfl rfl rfl id) fun _ => ?_
  exact .ofExcept result

theorem allocate_after {g : Heap → Except Fault (Handle × Heap)} {s : Settings} {m : Machine}
    (made : ∀ r heap, g m.world.heap = .ok (r, heap) → m.world.Stirs { m.world with heap }) :
    R m ((allocate g).after s m) :=
  allocate_allowed fun r heap done => AllowsWorld.world (.of_heap (made r heap done))

theorem allocate_keeps {g : Heap → Except Fault (Handle × Heap)}
    (made : ∀ (w : World) r heap, g w.heap = .ok (r, heap) → w.Stir { w with heap }) :
    Keeps R (allocate g) :=
  fun _ m => allocate_after fun r heap done => .single (made m.world r heap done) rfl

theorem checkLength_ok {length : Nat} {s : Settings} {m m' : Machine}
    (h : checkLength length s m = .ok () m') : m' = m ∧ m.world.heap.isTooLong length = false := by
  rw [checkLength, bind_of_ok heap_run] at h
  cases checked : m.world.heap.checkLength length with
  | ok =>
      rw [checked] at h
      cases h
      exact ⟨rfl, Heap.checkLength_ok checked⟩
  | error e =>
      rw [checked] at h
      obtain ⟨_, _, -, failed⟩ := bind_eq_ok h
      cases failed

theorem newInstance_after {cls : LoadedClass} {reserved : Bool} {s : Settings} {m : Machine}
    (found : m.world.library.find? cls.name = some cls) :
    R m ((newInstance cls reserved).after s m) := by
  refine Keeps.bind_after (library_keeps s m) fun lib mid read => ?_
  cases read
  exact allocate_after fun r heap made => .single (.object found made) rfl

/-- To a relation that does not look at the memory any allocation is allowed. -/
theorem allocate_freely {R : Machine → Machine → Prop} [AllowsMemory R]
    (g : Heap → Except Fault (Handle × Heap)) : Keeps R (allocate g) :=
  fun _ _ => allocate_allowed fun _ _ _ => AllowsMemory.memory (.of_eq rfl rfl rfl rfl rfl id)

theorem newInstance_freely {R : Machine → Machine → Prop} [AllowsMemory R] (cls : LoadedClass)
    (reserved : Bool) : Keeps R (newInstance cls reserved) :=
  library_keeps.bind fun _ => allocate_freely _

/-- A field that was resolved is remembered. -/
theorem resolveField_ok {className name : String} {f : FieldRef} {s : Settings} {m m' : Machine}
    (h : resolveField className name s m = .ok (some f) m') :
    m'.world.fieldMemo.lookup (className, name) = some f := by
  rw [resolveField, bind_of_ok world_run] at h
  cases known : m.world.fieldMemo.lookup (className, name) with
  | some g =>
      rw [known] at h
      cases h
      exact known
  | none =>
      rw [known] at h
      obtain ⟨_, mid, -, h⟩ := bind_eq_ok h
      rw [bind_of_ok library_run] at h
      cases found : mid.world.library.findField className name with
      | none =>
          rw [found] at h
          cases h
      | some g =>
          rw [found] at h
          obtain ⟨_, last, -, h⟩ := bind_eq_ok h
          rw [bind_of_ok (modifyWorld_run _)] at h
          cases h
          exact List.lookup_cons_self

theorem findClass_ok {name : String} {cls : LoadedClass} {s : Settings} {m m' : Machine}
    (h : findClass name s m = .ok cls m') : m' = m ∧ m.world.library.find? name = some cls := by
  rw [findClass, bind_of_ok library_run, Library.find] at h
  cases found : m.world.library.find? name with
  | none =>
      rw [found] at h
      cases h
  | some c =>
      rw [found] at h
      cases h
      exact ⟨rfl, rfl⟩

theorem setField_after {r : Handle} {f : FieldDecl} {v : Value} {s : Settings} {m : Machine}
    (fits : m.world.Writes f v) : R m ((setField r f v).after s m) :=
  setField_allowed fun _ stored =>
    AllowsWorld.world (.of_heap (.single (.field fits stored) rfl))

theorem allocate_ok {g : Heap → Except Fault (Handle × Heap)} {r : Handle} {s : Settings}
    {m m' : Machine} (h : allocate g s m = .ok r m') :
    ∃ heap, g m.world.heap = .ok (r, heap) ∧ m' = { m with world := { m.world with heap } } := by
  rw [allocate, bind_of_ok heap_run] at h
  cases made : g m.world.heap with
  | ok done =>
      rw [made] at h
      cases h
      exact ⟨_, rfl, rfl⟩
  | error e =>
      rw [made] at h
      obtain ⟨_, _, -, failed⟩ := bind_eq_ok h
      cases failed

theorem allocate_of_ok {g : Heap → Except Fault (Handle × Heap)} {r : Handle} {heap : Heap}
    {s : Settings} {m : Machine} (made : g m.world.heap = .ok (r, heap)) :
    allocate g s m = .ok r { m with world := { m.world with heap } } := by
  rw [allocate, bind_of_ok heap_run, made]
  rfl

theorem reportRefusal_fail {α : Type} {e : Fault} {s : Settings} {m : Machine} :
    ∃ events refusals, (reportRefusal e >>= fun _ => fail e : Exec α) s m =
      .error (.fault e) { m with world := { m.world with events, refusals } } := by
  obtain ⟨events, told⟩ := reportRefusal_run (s := s) (m := m) e
  exact ⟨events, _, bind_of_ok told⟩

/-- An allocation that fails has no effect on the heap. -/
theorem allocate_of_error {g : Heap → Except Fault (Handle × Heap)} {e : Fault} {s : Settings}
    {m : Machine} (refused : g m.world.heap = .error e) : ∃ events refusals, allocate g s m =
      .error (.fault e) { m with world := { m.world with events, refusals } } := by
  rw [allocate, bind_of_ok heap_run, refused]
  exact reportRefusal_fail

theorem newCharacters_of_ok {text : String} {r : Handle} {heap : Heap} {s : Settings} {m : Machine}
    (made : m.world.heap.allocateArrayOf .char "[C" ((Text.units text).map Value.char).toArray =
      .ok (r, heap)) :
    newCharacters text s m = .ok r { m with world := { m.world with
      heap
      lapses := m.world.lapses.stretch
        (heap.isTooLong ((Text.units text).map Value.char).toArray.size) } } := by
  rw [newCharacters, bind_of_ok (allocate_of_ok made)]
  rfl

/-- The characters of a text are made into an array. -/
theorem newCharacters_keeps (text : String) : Keeps R (newCharacters text) := by
  intro s m
  cases made : m.world.heap.allocateArrayOf .char "[C"
      ((Text.units text).map Value.char).toArray with
  | ok done =>
      rw [after_of_ok (newCharacters_of_ok made)]
      refine AllowsWorld.world (.of_heap (.single (.characters (fun v listed => ?_) made) rfl))
      obtain ⟨u, -, rfl⟩ := List.mem_map.mp (List.mem_toArray.mp listed)
      exact ⟨u, rfl⟩
  | error e =>
      refine Keeps.bind_after (allocate_allowed fun r heap other => ?_) fun chars mid other => ?_
      · exact nomatch made.symm.trans other
      · obtain ⟨heap, other, -⟩ := allocate_ok other
        exact nomatch made.symm.trans other

theorem newString_stirsMemory (text : String) :
    Keeps Machine.SameThreadStirsMemory (newString text) := by
  intro s m
  unfold newString
  refine Keeps.bind_after (findClass_keeps _ s m) fun cls m₀ looked => ?_
  obtain ⟨rfl, found⟩ := findClass_ok looked
  refine Keeps.bind_after (resolveField_keeps _ _ s m₀) fun field m₁ resolved => ?_
  have first : m₀.SameThreadStirsMemory m₁ := (resolveField_keeps _ _).of_ok resolved
  split
  · exact Keeps.fail _ s m₁
  next field =>
    refine Keeps.bind_after (newCharacters_keeps text s m₁) fun chars m₂ made => ?_
    have second : m₁.SameThreadStirsMemory m₂ := (newCharacters_keeps text).of_ok made
    have still : m₂.world.library.find? cls.name = some cls := by
      rw [second.world.library, first.world.library, Library.name_of_find? found]
      exact found
    refine Keeps.bind_after (newInstance_after still) fun string m₃ made => ?_
    have third : m₂.SameThreadStirsMemory m₃ := after_of_ok made ▸ newInstance_after still
    have known := third.world.known (second.world.known (resolveField_ok resolved))
    exact Keeps.bind_after (setField_after (.characters chars known)) fun _ _ _ => Std.Refl.refl _

theorem newString_keeps (text : String) : Keeps R (newString text) :=
  (newString_stirsMemory text).of_stirsMemory

theorem attachMessage_stirsMemory (exception : Handle) {className : String} (message : String)
    (own : Throwable.Raised className) :
    Keeps Machine.SameThreadStirsMemory (attachMessage exception className message) := by
  intro s m
  unfold attachMessage
  refine Keeps.bind_after (resolveField_keeps _ _ s m) fun field m₁ resolved => ?_
  split
  · exact Std.Refl.refl _
  · refine Keeps.bind_after ((newString_keeps message).attempt s m₁) fun text m₂ made => ?_
    have kept : m₁.SameThreadStirsMemory m₂ := (newString_keeps message).attempt.of_ok made
    split
    next text =>
      exact setField_after (.message text own (kept.world.known (resolveField_ok resolved)))
    · split
      · exact Std.Refl.refl _
      · exact Std.Refl.refl _

theorem attachMessage_keeps (exception : Handle) {className : String} (message : String)
    (own : Throwable.Raised className) : Keeps R (attachMessage exception className message) :=
  (attachMessage_stirsMemory exception message own).of_stirsMemory

/-! ### Monitors and classes -/

theorem entryMonitor_keeps (h : Handle) : Keeps R (entryMonitor h) :=
  heap_keeps.bind fun _ => Keeps.bind (.ofExcept _) fun _ => .pure _

theorem monitorOf_keeps (v : Value) : Keeps R (monitorOf v) := by
  unfold monitorOf
  split
  · exact .pure _
  · exact (entryMonitor_keeps _).bind fun _ => .pure _
  · exact (entryMonitor_keeps _).bind fun _ => .pure _
  · exact .pure _
  · exact .fail _

theorem methodMonitor_keeps (cls : LoadedClass) (m : MethodDecl) :
    Keeps R (methodMonitor cls m) := by
  unfold methodMonitor
  split
  · exact .pure _
  · refine (peek_keeps _).bind fun v => ?_
    split
    · exact entryMonitor_keeps _
    · exact entryMonitor_keeps _
    · exact .pure _
    · exact .fail _

theorem declaringClass_keeps (m : MethodDecl) : Keeps R (declaringClass m) :=
  findClass_keeps m.className

theorem threadGroup_keeps : Keeps R threadGroup := by
  unfold threadGroup
  refine thread_keeps.bind fun t => ?_
  split
  · exact .pure _
  · refine heap_keeps.bind fun h => Keeps.bind (.ofExcept _) fun group => ?_
    split <;> exact .pure _

theorem receiver_keeps (ref : MemberRef) : Keeps R (receiver ref) :=
  Keeps.bind (.ofExcept _) fun _ => peek_keeps _

/-! ### Objects and arrays -/

theorem runtimeTypeName_keeps (v : Value) : Keeps R (runtimeTypeName v) := by
  unfold runtimeTypeName
  split
  · exact heap_keeps.bind fun _ => Keeps.bind (.ofExcept _) fun _ => .pure _
  · exact heap_keeps.bind fun _ => .ofExcept _
  · exact .pure _
  · exact .fail _

theorem misfit_keeps (descriptor : String) (v : Value) :
    Keeps R (misfit descriptor v) := by
  unfold misfit
  split
  · exact .pure _
  · refine (runtimeTypeName_keeps v).bind fun source => library_keeps.bind fun lib => ?_
    split <;> exact .pure _

theorem fitting_keeps (descriptor : String) :
    ∀ (vs : List Value) (n : Nat), Keeps R (fitting descriptor vs n)
  | [], _ => .pure _
  | v :: vs, n => by
      refine (misfit_keeps descriptor v).bind fun refused => ?_
      split
      · exact .pure _
      · exact fitting_keeps descriptor vs (n + 1)

theorem Keeps.collectTimes {R : Machine → Machine → Prop} [IsPreorder Machine R] {x : Exec α}
    (hx : Keeps R x) : ∀ (n : Nat) (results : Array α), Keeps R (collectTimes x n results)
  | 0, _ => .pure _
  | n + 1, _ => hx.bind fun _ => hx.collectTimes n _

theorem collectTimes_size {α : Type} {x : Exec α} {s : Settings} : ∀ {n : Nat}
    {results all : Array α} {m m' : Machine}, collectTimes x n results s m = .ok all m' →
    all.size = results.size + n
  | 0, _, _, _, _, h => by
      cases h
      rfl
  | n + 1, results, all, _, _, h => by
      obtain ⟨a, mid, -, h⟩ := bind_eq_ok h
      rw [collectTimes_size h, Array.size_push]
      omega

/-- A computation makes an array of a descriptor, and does nothing else than stir the memory. -/
structure Makes (descriptor : List Char) (x : Exec Handle) : Prop where
  /-- The thread is the same, and the memory was stirred. -/
  stirs : Keeps Machine.SameThreadStirsMemory x
  /-- The result is an array of the descriptor. -/
  made : ∀ {s m r m'}, x s m = .ok r m' → m.world.heap.Arena →
    m'.world.heap.ArrayAt (String.ofList descriptor) r

theorem Makes.allocate {descriptor : List Char} {length : Nat} :
    Makes descriptor (allocate (·.allocateArray
      (.ofDescriptor (String.ofList descriptor.tail)) (String.ofList descriptor) length)) where
  stirs := allocate_keeps fun _ _ _ => .array (by rw [ElementKind.ofArray, String.toList_ofList])
  made h arena := by
    obtain ⟨heap, made, rfl⟩ := allocate_ok h
    have cells := (arena.grown (Heap.allocateArray_ok made)).cells
    exact ⟨_, Heap.array_eq_ok.mpr (Heap.entry_eq_ok.mpr ⟨_, by rw [cells, if_pos rfl]⟩), rfl⟩

/-- Arrays that are made one after the other are all there in the end. -/
theorem Makes.collectTimes {descriptor : List Char} {x : Exec Handle} (hx : Makes descriptor x) :
    ∀ (n : Nat) (results : Array Handle) {s : Settings} {m m' : Machine} {all : Array Handle},
      collectTimes x n results s m = .ok all m' → m.world.heap.Arena →
      (∀ r ∈ results, m.world.heap.ArrayAt (String.ofList descriptor) r) →
      ∀ r ∈ all, m'.world.heap.ArrayAt (String.ofList descriptor) r
  | 0, results, s, m, m', all, h, _, before => by
      cases h
      exact before
  | n + 1, results, s, m, m', all, h, arena, before => by
      obtain ⟨r, mid, first, rest⟩ := bind_eq_ok h
      have stirs := (hx.stirs.of_ok first).world.stirs
      refine hx.collectTimes n _ rest (stirs.arena arena) fun r' listed => ?_
      obtain old | rfl := Array.mem_push.mp listed
      · exact stirs.arrayAt arena (before r' old)
      · exact hx.made first arena

/-- A descriptor of some dimensions is one of one dimension less behind a bracket. -/
theorem dimension_cons {n : Nat} {descriptor : List Char}
    (deep : n + 1 ≤ (descriptor.takeWhile (· == '[')).length) :
    ∃ rest, descriptor = '[' :: rest ∧ n ≤ (rest.takeWhile (· == '[')).length := by
  cases descriptor with
  | nil => simp at deep
  | cons c rest =>
      by_cases bracket : c = '['
      · subst bracket
        exact ⟨rest, rfl, by simpa using deep⟩
      · simp [bracket] at deep

theorem multiArray_freely {R : Machine → Machine → Prop} [AllowsMemory R] :
    ∀ (lengths : List Nat) (descriptor : List Char), Keeps R (multiArray descriptor lengths)
  | [], _ => allocate_freely _
  | [_], _ => allocate_freely _
  | length :: next :: lengths, descriptor => by
      refine (checkLength_keeps length).bind fun _ => ?_
      refine (Keeps.collectTimes (multiArray_freely (next :: lengths) _) _ _).bind fun inner => ?_
      exact allocate_freely _

/-- An array of arrays is made for a descriptor that has as many dimensions as lengths are given,
and at least one is. -/
theorem multiArray_makes : ∀ (lengths : List Nat) (descriptor : List Char), lengths ≠ [] →
    lengths.length ≤ (descriptor.takeWhile (· == '[')).length →
    Makes descriptor (multiArray descriptor lengths)
  | [], _, given, _ => absurd rfl given
  | [_], _, _, _ => .allocate
  | length :: next :: lengths, descriptor, _, deep => by
      obtain ⟨rest, rfl, within⟩ := dimension_cons deep
      obtain ⟨last, rfl, -⟩ := dimension_cons within
      have inner := multiArray_makes (next :: lengths) ('[' :: last) (List.cons_ne_nil _ _) within
      constructor
      · intro s m
        -- in a heap that has its books in order the inner arrays are there when the outer one is made
        by_cases arena : m.world.heap.Arena
        · refine Keeps.bind_after (checkLength_keeps length s m) fun _ m₁ checked => ?_
          obtain ⟨rfl, short⟩ := checkLength_ok checked
          refine Keeps.bind_after (inner.stirs.collectTimes _ _ s m₁) fun all m₂ made => ?_
          have limits := ((inner.stirs.collectTimes _ _).of_ok made).world.stirs.limits arena
          have arrays := inner.collectTimes _ _ made arena (by simp)
          have size : all.size = length := by simpa using collectTimes_size made
          have short : m₂.world.heap.isTooLong all.size = false := by
            rwa [size, Heap.isTooLong, limits.2]
          exact allocate_after fun r heap done => .single (.nested rfl arrays short done) rfl
        · have rests : Keeps Machine.SameThreadClasses (multiArray _ _) :=
            multiArray_freely (length :: next :: lengths) ('[' :: '[' :: last)
          obtain ⟨thread, sameClasses⟩ := rests s m
          exact ⟨thread, sameClasses, fun books => absurd books arena⟩
      · intro s m r m' h arena
        obtain ⟨_, m₁, checked, h⟩ := bind_eq_ok h
        obtain ⟨all, m₂, made, h⟩ := bind_eq_ok h
        obtain ⟨heap, done, rfl⟩ := allocate_ok h
        obtain ⟨rfl, -⟩ := checkLength_ok checked
        have books := ((inner.stirs.collectTimes _ _).of_ok made).world.stirs.arena arena
        have cells := (books.grown done).cells
        exact ⟨_, Heap.array_eq_ok.mpr (Heap.entry_eq_ok.mpr ⟨_, by rw [cells, if_pos rfl]⟩), rfl⟩

theorem multiArray_keeps {lengths : List Nat} {descriptor : List Char} (given : lengths ≠ [])
    (deep : lengths.length ≤ (descriptor.takeWhile (· == '[')).length) :
    Keeps R (multiArray descriptor lengths) :=
  (multiArray_makes lengths descriptor given deep).stirs.of_stirsMemory

/-! ### Between two instructions -/

theorem pauseToken_keeps (id : TokenId) : Keeps R (pauseToken id) :=
  world_keeps.bind fun _ => .pure _

theorem modifyToken_keeps (id : TokenId) (f : PauseToken → PauseToken) :
    Keeps R (modifyToken id f) :=
  modifyWorld_keeps fun _ => .of_eq rfl rfl rfl rfl rfl rfl rfl rfl rfl fun halted => halted

theorem settleToken_keeps (id : TokenId) : Keeps R (settleToken id) := by
  unfold settleToken
  refine (pauseToken_keeps id).bind fun token => (modifyToken_keeps _ _).bind fun _ => ?_
  split
  · exact modifyWorld_keeps fun _ => .of_eq rfl rfl rfl rfl rfl rfl rfl rfl rfl fun _ => rfl
  · exact .pure _

theorem checkpoint_keeps : Keeps R checkpoint := by
  unfold checkpoint
  refine thread_keeps.bind fun t => (pauseToken_keeps _).bind fun token => ?_
  split
  · exact .pure _
  · refine (modifyToken_keeps _ _).bind fun _ => (report_keeps _).bind fun _ =>
      isHalted_keeps.bind fun halted => ?_
    have ending : Keeps R (do
        if (← pauseToken t.token).phase = ‹_› then report .haltedWhilePaused
        else report .threadResumed
        return true) := by
      refine (pauseToken_keeps _).bind fun token => ?_
      split <;> exact (report_keeps _).bind fun _ => .pure _
    split
    · exact ending
    · split
      · exact Keeps.bind (.throw _) fun _ => (settleToken_keeps _).bind fun _ => ending
      · exact (settleToken_keeps _).bind fun _ => ending

theorem mustCollect_keeps : Keeps R mustCollect := by
  unfold mustCollect
  refine .bind (modifyWorld_keeps fun _ => .of_eq rfl rfl rfl rfl rfl rfl rfl rfl rfl id) fun _ =>
    world_keeps.bind fun w => ?_
  split
  · exact halt_keeps.bind fun _ => .pure _
  · exact .pure _

theorem stopsHere_keeps : Keeps R stopsHere := by
  unfold stopsHere
  refine isHalted_keeps.bind fun halted => ?_
  split
  · exact .pure _
  · refine checkpoint_keeps.bind fun paused => ?_
    split
    · exact isHalted_keeps
    · exact .pure _

/-! ### Changes of classes and monitors -/

theorem modifyWorld_sameThread {g : World → World}
    (hg : ∀ w, w.halted = true → (g w).halted = true) : Keeps Machine.SameThread (modifyWorld g) :=
  fun _ m => ⟨rfl, hg m.world⟩

theorem Keeps.sameThread {x : Exec α} (hx : Keeps Machine.SameThreadMonitors x) :
    Keeps Machine.SameThread x :=
  hx.mono fun _ _ => Machine.SameThreadMonitors.toSameThread

theorem modifyWorld_sameThreadMonitors {g : World → World}
    (hg : ∀ w, w.halted = true → (g w).halted = true) (same : ∀ w, (g w).monitors = w.monitors) :
    Keeps Machine.SameThreadMonitors (modifyWorld g) :=
  fun _ m => ⟨⟨rfl, hg m.world⟩, same m.world⟩

theorem record_sameThreadMonitors (o : Occurrence) : Keeps Machine.SameThreadMonitors (record o) :=
  modifyWorld_sameThreadMonitors (fun _ halted => halted) fun _ => rfl

theorem useClass_sameThreadMonitors (id : Nat) : Keeps Machine.SameThreadMonitors (useClass id) :=
  thread_keeps.bind fun _ => (initState_keeps id).bind fun _ => record_sameThreadMonitors _

theorem setInitState_sameThreadMonitors (id : Nat) (i : InitState) :
    Keeps Machine.SameThreadMonitors (setInitState id i) :=
  (initState_keeps id).bind fun _ => (record_sameThreadMonitors _).bind fun _ =>
    modifyWorld_sameThreadMonitors (fun _ halted => halted) fun _ => rfl

theorem enterMonitor_sameThread (k : MonitorKey) : Keeps Machine.SameThread (enterMonitor k) := by
  unfold enterMonitor
  refine get_keeps.bind fun m => ?_
  split
  · exact modifyWorld_sameThread fun _ halted => halted
  · exact .throw _

theorem exitMonitor_sameThread (k : MonitorKey) : Keeps Machine.SameThread (exitMonitor k) :=
  get_keeps.bind fun _ => .bind (modifyWorld_sameThread fun _ halted => halted) fun _ => .pure _

theorem beginInitialisation_sameThreadMonitors (id : Nat) :
    Keeps Machine.SameThreadMonitors (beginInitialisation id) := by
  unfold beginInitialisation
  refine thread_keeps.bind fun t => (initState_keeps id).bind fun i => ?_
  split
  · exact (setInitState_sameThreadMonitors _ _).bind fun _ => .pure _
  · split
    · exact .pure _
    · exact .throw _
  · exact .pure _
  · exact .pure _

theorem finishInitialisation_sameThreadMonitors (id : Nat) (succeeded : Bool) :
    Keeps Machine.SameThreadMonitors (finishInitialisation id succeeded) :=
  setInitState_sameThreadMonitors _ _

end Exec

end JavaMachine
