import JavaMachine.Proofs.Balance
import JavaMachine.Proofs.Covariance
import JavaMachine.Proofs.Results

/-!
# Arrays hold elements of their kind

An array has a kind, and its descriptor says the same one.  A new array is filled with the default of
its kind, a copy has the kind of what is copied, and elements are only moved between two arrays of
one kind.  What is left are the instructions that store.  Each of them converts its operand, most of
them to the kind that the instruction is for, the one for bytes to what the descriptor says; none of
them looks whether the array has that kind.

So an instruction may store an element of another kind.  A world counts such mixings.  As long as
nothing is mixed, every element is of the kind of its array, and an instruction that meets an array
of another kind has stopped in a fault or raised an exception, and has stored nothing.
-/

namespace JavaMachine

open Exec
open Relation (ReflTransGen)

/-! ## Values of a kind -/

/-- A value is an element of a kind. -/
def ElementKind.admits : ElementKind → Value → Bool
  | .boolean, .bool _ | .char, .char _ | .float, .float _ | .double, .double _ | .byte, .byte _
  | .short, .short _ | .int, .int _ | .long, .long _ => true
  | .reference, v => v.isReference
  | _, _ => false

theorem ElementKind.admits_default (kind : ElementKind) : kind.admits kind.defaultValue = true := by
  cases kind <;> rfl

/-- The descriptor of an array says its kind, and all its elements are of that kind. -/
structure ArrayEntry.Kinded (a : ArrayEntry) : Prop where
  /-- The descriptor says the kind. -/
  agrees : a.kind = .ofArray a.descriptor
  /-- The elements are of the kind. -/
  elements : ∀ v ∈ a.elements, a.kind.admits v = true

/-- All arrays hold elements of their kinds. -/
def Heap.Kinded (h : Heap) : Prop := ∀ r a, h.array r = .ok a → a.Kinded

/-- What an instruction stores into an array of its own kind is of that kind, and so is what the
instruction for bytes stores into an array of booleans. -/
theorem ElementKind.admits_converted {kind : ElementKind} {a : ArrayEntry} {operand v : Value}
    (agrees : a.kind = .ofArray a.descriptor) (unmixed : mixing kind a.kind = 0)
    (converted : primitiveElement kind a.descriptor operand = .ok v)
    (reference : kind = .reference → v.isReference = true) : a.kind.admits v = true := by
  have own : kind = a.kind ∨ kind = .byte ∧ a.kind = .boolean := by
    by_contra other
    simp [mixing, other] at unmixed
  have mapped {α : Type} {x : Except Fault α} {g : α → Value} (h : x.map g = .ok v) :
      ∃ n, v = g n := by
    cases x with
    | error e => cases h
    | ok n =>
        cases h
        exact ⟨n, rfl⟩
  have described : ofDescriptor (String.ofList a.descriptor.toList.tail) = a.kind := agrees.symm
  unfold primitiveElement at converted
  rw [described] at converted
  rcases own with same | ⟨rfl, boolean⟩
  · rw [← same] at converted ⊢
    cases kind with
    | reference => exact reference rfl
    | _ =>
        obtain ⟨n, rfl⟩ := mapped converted
        rfl
  · rw [boolean] at converted ⊢
    obtain ⟨n, rfl⟩ := mapped converted
    rfl

/-! ## One change of the memory -/

namespace Heap

variable {h h' : Heap} {e : Entry} {r r' : Handle} {a : ArrayEntry}

/-- An allocation takes the place of no array. -/
theorem Grown.array_kept (grown : Grown h e r h') (found : h.array r' = .ok a) :
    h'.array r' = .ok a := by
  obtain ⟨serial, cell⟩ := entry_eq_ok.mp (array_eq_ok.mp found)
  exact array_eq_ok.mpr (entry_eq_ok.mpr ⟨serial, grown.kept cell⟩)

theorem array_beside (other : r' ≠ r) (found : h.array r' = .ok a) :
    (h.replace r e).array r' = .ok a := by
  obtain ⟨serial, cell⟩ := entry_eq_ok.mp (array_eq_ok.mp found)
  exact array_eq_ok.mpr (entry_eq_ok.mpr ⟨serial, by rw [cell?_replace, if_neg other, cell]⟩)

/-- An entry that is not the array was replaced. -/
theorem array_kept {old : Entry} (read : h.entry r = .ok old) (other : old ≠ .array a)
    (found : h.array r' = .ok a) : (h.replace r e).array r' = .ok a := by
  refine array_beside ?_ found
  rintro rfl
  exact other (Except.ok.inj (read.symm.trans (array_eq_ok.mp found)))

end Heap

namespace World

variable {w w' : World}

theorem Stir.mixings_le (h : w.Stir w') : w.lapses.mixings ≤ w'.lapses.mixings := by
  cases h with
  | beside _ _ _ _ _ lapses => exact Nat.le_of_eq (congrArg Lapses.mixings lapses.symm)
  | element => exact Nat.le_add_right _ _
  | _ => exact Nat.le_refl _

/-- A change of the memory that mixes nothing leaves every array with elements of its kind. -/
theorem Stir.kinded (h : w.Stir w') (arena : w.heap.Arena) (kinded : w.heap.Kinded)
    (unmixed : w'.lapses.mixings = w.lapses.mixings) : w'.heap.Kinded := by
  intro r a there
  cases h.origin arena there with
  | old found => exact kinded _ a found
  | filled =>
      refine ⟨rfl, fun v listed => ?_⟩
      rw [Array.eq_of_mem_replicate listed]
      exact ElementKind.admits_default _
  | characters units =>
      have agrees : ElementKind.char = .ofArray "[C" := by decide
      refine ⟨agrees, fun v listed => ?_⟩
      obtain ⟨u, rfl⟩ := units v listed
      rfl
  | nested dimension =>
      obtain ⟨rest, rfl⟩ := Library.eq_cons_of_head? dimension
      refine ⟨ofArray_reference (.inl rfl) String.toList_ofList, fun v listed => ?_⟩
      obtain ⟨r, -, rfl⟩ := Array.mem_map.mp listed
      rfl
  | @stored kind r i operand v a found converted fits _ mixed =>
      have own : mixing kind a.kind = 0 := by
        rw [mixed] at unmixed
        exact Nat.add_eq_left.mp unmixed
      obtain ⟨agrees, elements⟩ := kinded r a found
      refine ⟨agrees, fun u listed => ?_⟩
      rcases Array.mem_or_eq_of_mem_setIfInBounds listed with old | rfl
      · exact elements u old
      · exact ElementKind.admits_converted agrees own converted fun reference =>
          (fits reference).isReference
  | @copied source dest a b elements read written kind _ fits =>
      obtain ⟨agrees, held⟩ := kinded dest b written
      refine ⟨agrees, fun v listed => ?_⟩
      rcases fits v listed with old | ⟨moved, -⟩
      · exact held v old
      · exact kind ▸ (kinded source a read).elements v moved

/-! ## What guests do -/

/-- Seen from a heap with its books in order, nothing was mixed and elements stayed of their kinds, or
it was counted. -/
abbrev Sorted : World → World → Prop :=
  Upheld (·.heap.Arena) (·.lapses.mixings) (·.heap.Kinded)

instance : AllowsStirs Sorted where
  stirs := Stirs.upheld fun stir arena =>
    ⟨stir.arena arena, stir.mixings_le, fun unmixed kinded => stir.kinded arena kinded unmixed⟩

end World

namespace Exec

theorem setStatic_sorted (f : FieldRef) (v : Value) :
    Keeps (Machine.Seen World.Sorted) (setStatic f v) := by
  intro s m arena
  exact ⟨arena, Nat.le_refl _, fun _ kinded => kinded⟩

theorem newInstance_sorted (cls : LoadedClass) (reserved : Bool) :
    Keeps (Machine.Seen World.Sorted) (newInstance cls reserved) := by
  refine library_keeps.bind fun lib s m => allocate_allowed fun r heap made arena => ?_
  exact ⟨arena.insert made, Nat.le_refl _, fun _ kinded r a found =>
    kinded r a ((arena.grown made).old_array found)⟩

end Exec

/-- A guest does a piece of work and mixes nothing. -/
def World.Unmixed (w w' : World) : Prop :=
  w.Guest w' ∧ w'.lapses.mixings = w.lapses.mixings

/-- A piece of work that mixes nothing keeps the books in order and the elements sorted. -/
theorem World.Unmixed.kinded {w w' : World} (h : w.Unmixed w') (arena : w.heap.Arena)
    (kinded : w.heap.Kinded) : w'.heap.Arena ∧ w'.heap.Kinded := by
  obtain ⟨guest, unmixed⟩ := h
  obtain sorted | ⟨-, -, heap, -, -⟩ := guest.keeps_or_beside
    (fun hr => putStaticField_seen hr setStatic_sorted)
    fun hr => newObject_seen hr fun cls => newInstance_sorted cls false
  · exact ⟨(sorted arena).ordered, (sorted arena).kept unmixed kinded⟩
  · exact heap ▸ ⟨arena, kinded⟩

/-! ## Stores that are refused -/

namespace Machine

/-- Between two machines nothing was mixed, and seen from a heap with its books in order every array
stayed as it was. -/
structure SameArrays (m m' : Machine) : Prop where
  /-- Nothing was mixed. -/
  mixings : m'.world.lapses.mixings = m.world.lapses.mixings
  /-- The books of the heap were kept in order. -/
  arena : m.world.heap.Arena → m'.world.heap.Arena
  /-- Every array is what it was. -/
  arrays : m.world.heap.Arena → ∀ {r a}, m.world.heap.array r = .ok a →
    m'.world.heap.array r = .ok a

instance : IsPreorder Machine SameArrays where
  refl _ := ⟨rfl, id, fun _ _ _ found => found⟩
  trans _ _ _ first second :=
    ⟨second.mixings.trans first.mixings, second.arena ∘ first.arena,
      fun arena _ _ found => second.arrays (first.arena arena) (first.arrays arena found)⟩

theorem SameArrays.of_heap {m m' : Machine} (heap : m'.world.heap = m.world.heap)
    (mixings : m'.world.lapses.mixings = m.world.lapses.mixings) : m.SameArrays m' :=
  ⟨mixings, fun arena => heap ▸ arena, fun _ _ _ found => heap ▸ found⟩

end Machine

namespace Exec

variable {α β : Type} {s : Settings} {m m' : Machine}

/-- A computation keeps a relation, and if it stops, it stops in a fault. -/
structure Tame (R : Machine → Machine → Prop) (x : Exec α) : Prop where
  /-- It keeps the relation. -/
  keeps : Keeps R x
  /-- It stops in a fault. -/
  stops : ∀ {s m stop m'}, x s m = .error stop m' → ∃ e, stop = .fault e

namespace Tame

variable {R R' : Machine → Machine → Prop} {x : Exec α} {f : α → Exec β}

theorem mono (hx : Tame R' x) (sub : ∀ m m', R' m m' → R m m') : Tame R x :=
  ⟨hx.keeps.mono sub, hx.stops⟩

theorem attempt (hx : Tame R x) : Tame R (attempt x) where
  keeps := hx.keeps.attempt
  stops {s m stop m'} h := by
    cases run : x s m with
    | ok a mid => rw [attempt_of_ok run] at h; cases h
    | error stop mid =>
        obtain ⟨e, rfl⟩ := hx.stops run
        rw [attempt_of_fault run] at h
        cases h

variable [IsPreorder Machine R]

theorem pure (a : α) : Tame R (Pure.pure a : Exec α) := ⟨.pure a, nofun⟩

theorem fail (e : Fault) : Tame R (fail e : Exec α) where
  keeps := .fail e
  stops h := by
    cases h
    exact ⟨e, rfl⟩

theorem ofExcept (r : Except Fault α) : Tame R (ofExcept r) := by
  cases r with
  | ok a => exact .pure a
  | error e => exact .fail e

theorem bind (hx : Tame R x) (hf : ∀ a, Tame R (f a)) : Tame R (x >>= f) where
  keeps := hx.keeps.bind fun a => (hf a).keeps
  stops h := by
    obtain first | ⟨a, mid, -, second⟩ := bind_eq_error h
    · exact hx.stops first
    · exact (hf a).stops second

end Tame

/-- A computation that leaves all arrays alone, and if it stops, it stops in a fault. -/
abbrev LeavesArrays (x : Exec α) : Prop := Tame Machine.SameArrays x

/-- A computation that has a result and leaves the heap alone. -/
theorem LeavesArrays.of_ok {x : Exec α} (run : ∀ s m, ∃ a m', x s m = .ok a m' ∧
    m'.world.heap = m.world.heap ∧ m'.world.lapses.mixings = m.world.lapses.mixings) :
      LeavesArrays x where
  keeps s m := by
    obtain ⟨a, m', run, heap, mixings⟩ := run s m
    rw [after_of_ok run]
    exact .of_heap heap mixings
  stops {s m _ _} h := by
    obtain ⟨a, m', run, -⟩ := run s m
    rw [run] at h
    cases h

theorem heap_leavesArrays : LeavesArrays heap :=
  LeavesArrays.of_ok fun _ m => ⟨m.world.heap, m, rfl, rfl, rfl⟩

theorem library_leavesArrays : LeavesArrays library :=
  LeavesArrays.of_ok fun _ m => ⟨m.world.library, m, rfl, rfl, rfl⟩

theorem modifyWorld_leavesArrays {g : World → World} (heap : ∀ w, (g w).heap = w.heap)
    (mixings : ∀ w, (g w).lapses.mixings = w.lapses.mixings) : LeavesArrays (modifyWorld g) :=
  LeavesArrays.of_ok fun _ m => ⟨(), _, rfl, heap m.world, mixings m.world⟩

theorem setPending_leavesArrays (h : Handle) : LeavesArrays (setPending h) :=
  LeavesArrays.of_ok fun _ _ => ⟨(), _, rfl, rfl, rfl⟩

theorem report_leavesArrays (e : Event) : LeavesArrays (report e) :=
  LeavesArrays.of_ok fun _ _ => have ⟨_, run⟩ := report_run e; ⟨(), _, run, rfl, rfl⟩

theorem findClass_leavesArrays (name : String) : LeavesArrays (findClass name) :=
  library_leavesArrays.bind fun _ => .ofExcept _

/-! ### Raising an exception -/

/-- An allocation leaves the arrays that are there alone. -/
theorem allocate_leavesArrays {g : Heap → Except Fault (Handle × Heap)}
    (made : ∀ {h r h'}, g h = .ok (r, h') → ∃ e reserved, h.insert e reserved = .ok (r, h')) :
    LeavesArrays (allocate g) := by
  constructor
  · intro s m
    cases asked : g m.world.heap with
    | ok done =>
        obtain ⟨e, reserved, inserted⟩ := made asked
        rw [after_of_ok (allocate_of_ok asked)]
        exact ⟨rfl, fun arena => arena.insert inserted, fun arena _ _ found =>
          (arena.grown inserted).array_kept found⟩
    | error e =>
        obtain ⟨events, refusals, run⟩ := allocate_of_error (s := s) asked
        rw [after_of_error run]
        exact .of_heap rfl rfl
  · intro s m stop m' failed
    cases asked : g m.world.heap with
    | ok done => cases (allocate_of_ok asked).symm.trans failed
    | error e =>
        obtain ⟨events, refusals, run⟩ := allocate_of_error (s := s) asked
        cases run.symm.trans failed
        exact ⟨_, rfl⟩

theorem newInstance_leavesArrays (cls : LoadedClass) (reserved : Bool) :
    LeavesArrays (newInstance cls reserved) :=
  library_leavesArrays.bind fun _ => allocate_leavesArrays fun made => ⟨_, _, made⟩

theorem resolveField_leavesArrays (className name : String) :
    LeavesArrays (resolveField className name) :=
  LeavesArrays.of_ok fun _ _ =>
    have ⟨_, _, _, run⟩ := resolveField_run className name
    ⟨_, _, run, rfl, rfl⟩

/-- A store into a field of an object touches no array. -/
theorem setField_leavesArrays (h : Handle) (f : FieldDecl) (v : Value) :
    LeavesArrays (setField h f v) := by
  constructor
  · intro s m
    cases stored : m.world.heap.setField h f v with
    | error e =>
        rw [after_of_error (setField_of_error stored)]
        exact Std.Refl.refl m
    | ok heap =>
        rw [after_of_ok (setField_of_ok stored)]
        obtain ⟨cls, slots, read, -, rfl⟩ := Heap.setField_ok stored
        exact ⟨rfl, fun arena => arena.replace, fun _ _ _ found => Heap.array_kept read nofun found⟩
  · intro s m stop m' failed
    cases stored : m.world.heap.setField h f v with
    | ok heap => cases (setField_of_ok stored).symm.trans failed
    | error e =>
        cases (setField_of_error stored).symm.trans failed
        exact ⟨_, rfl⟩

theorem newCharacters_leavesArrays (text : String) : LeavesArrays (newCharacters text) := by
  refine (allocate_leavesArrays fun made => ⟨_, _, made⟩).bind fun chars => ?_
  exact .bind (modifyWorld_leavesArrays (fun _ => rfl) fun _ => rfl) fun _ => .pure _

theorem newString_leavesArrays (text : String) : LeavesArrays (newString text) := by
  refine (findClass_leavesArrays _).bind fun cls => (resolveField_leavesArrays _ _).bind
    fun field => ?_
  split
  · exact .fail _
  · refine (newCharacters_leavesArrays text).bind fun chars => ?_
    refine (newInstance_leavesArrays cls false).bind fun string => ?_
    exact (setField_leavesArrays _ _ _).bind fun _ => .pure _

theorem attachMessage_leavesArrays (exception : Handle) (className message : String) :
    LeavesArrays (attachMessage exception className message) := by
  refine (resolveField_leavesArrays _ _).bind fun field => ?_
  split
  · exact .pure _
  · refine (newString_leavesArrays message).attempt.bind fun text => ?_
    split
    · exact setField_leavesArrays _ _ _
    · split
      · exact .pure _
      · exact .fail _

theorem raiseOutOfMemory_leavesArrays : LeavesArrays raiseOutOfMemory :=
  (report_leavesArrays _).bind fun _ => (findClass_leavesArrays _).bind fun cls =>
    (newInstance_leavesArrays cls true).bind fun h => setPending_leavesArrays h

theorem orOutOfMemory_leavesArrays {x : Exec α} (hx : LeavesArrays x) :
    LeavesArrays (orOutOfMemory x) := by
  refine hx.attempt.bind fun result => ?_
  split
  · exact .pure _
  · split
    · exact raiseOutOfMemory_leavesArrays.bind fun _ => .pure _
    · exact .fail _

theorem raise_leavesArrays (className : String) (message : Option String) :
    LeavesArrays (raise className message) := by
  unfold raise
  split
  · exact raiseOutOfMemory_leavesArrays
  · refine (report_leavesArrays _).bind fun _ => (findClass_leavesArrays _).bind fun cls => ?_
    refine (orOutOfMemory_leavesArrays (newInstance_leavesArrays cls false)).bind
      fun exception => ?_
    split
    · exact .pure _
    · dsimp only
      split
      · exact setPending_leavesArrays _
      · exact (attachMessage_leavesArrays _ _ _).bind fun _ => setPending_leavesArrays _

theorem raiseMisfit_leavesArrays (source descriptor : String) :
    LeavesArrays (raiseMisfit source descriptor) :=
  raise_leavesArrays _ _

/-! ### The store -/

theorem popOperand_leavesArrays : LeavesArrays popOperand where
  keeps := onThread_keeps fun _ _ _ _ => .of_heap rfl rfl
  stops {s m stop m'} h := by
    cases popped : m.thread.popOperand with
    | error e =>
        rw [popOperand, onThread_of_error popped] at h
        cases h
        exact ⟨e, rfl⟩
    | ok done =>
        rw [popOperand, onThread_of_ok (t := done.2) popped] at h
        cases h

theorem pop_leavesArrays : LeavesArrays pop := popOperand_leavesArrays.bind fun _ => .pure _

theorem popInt_leavesArrays : LeavesArrays popInt := pop_leavesArrays.bind fun _ => .ofExcept _

theorem popArrayAt_leavesArrays (index : Int32) : LeavesArrays (popArrayAt index) := by
  refine pop_leavesArrays.bind fun v => ?_
  split
  · exact (raise_leavesArrays _ _).bind fun _ => .pure _
  · refine heap_leavesArrays.bind fun h => (Tame.ofExcept _).bind fun length => ?_
    split
    · exact .pure _
    · exact (raise_leavesArrays _ _).bind fun _ => .pure _
  · exact .fail _

theorem misfit_leavesArrays (descriptor : String) (v : Value) :
    LeavesArrays (misfit descriptor v) := by
  unfold misfit
  split
  · exact .pure _
  · refine Tame.bind ?_ fun source => library_leavesArrays.bind fun lib => ?_
    · unfold runtimeTypeName
      split
      · exact heap_leavesArrays.bind fun _ => (Tame.ofExcept _).bind fun _ => .pure _
      · exact heap_leavesArrays.bind fun _ => .ofExcept _
      · exact .pure _
      · exact .fail _
    · split <;> exact .pure _

theorem storeFitting_run {kind : ElementKind} {r : Handle} {index : Int32} {descriptor : String}
    {element : Value} : storeFitting kind r index descriptor element none s m =
      match m.world.heap.array r, m.world.heap.storeElement r index element with
      | .ok a, .ok (_, heap) => .ok () { m with world :=
          { m.world with
            heap
            crossings := m.world.crossings + crossing kind a.kind
            lapses := m.world.lapses.mix (mixing kind a.kind) } }
      | .error e, _ | _, .error e => .error (.fault e) m := by
  rw [storeFitting, bind_of_ok heap_run]
  cases m.world.heap.array r with
  | error e => rfl
  | ok a =>
      rw [bind_of_ok (show ofExcept (.ok a) s m = .ok a m from rfl), bind_of_ok heap_run]
      cases m.world.heap.storeElement r index element <;> rfl

end Exec

/-- Between two machines a mixing was counted, or, seen from a heap with its books in order, every
array stayed as it was that is not for the elements of an instruction. -/
structure Machine.Shuns (kind : ElementKind) (m m' : Machine) : Prop where
  /-- Mixings are never forgotten. -/
  mixings : m.world.lapses.mixings ≤ m'.world.lapses.mixings
  /-- The books of the heap were kept in order. -/
  arena : m.world.heap.Arena → m'.world.heap.Arena
  /-- Every other array is what it was. -/
  arrays : m.world.heap.Arena → m'.world.lapses.mixings = m.world.lapses.mixings →
    ∀ {r a}, m.world.heap.array r = .ok a → mixing kind a.kind ≠ 0 → m'.world.heap.array r = .ok a

instance (kind : ElementKind) : IsPreorder Machine (Machine.Shuns kind) where
  refl _ := ⟨Nat.le_refl _, id, fun _ _ _ _ found _ => found⟩
  trans a b c first second :=
    { mixings := Nat.le_trans first.mixings second.mixings
      arena := second.arena ∘ first.arena
      arrays := fun arena unmixed _ _ found other => by
        have up := first.mixings
        have up' := second.mixings
        exact second.arrays (first.arena arena) (by omega)
          (first.arrays arena (by omega) found other) other }

namespace Exec

variable {α : Type} {s : Settings} {m m' : Machine} {kind : ElementKind} {r : Handle}

theorem LeavesArrays.shuns {x : Exec α} (hx : LeavesArrays x) : Tame (Machine.Shuns kind) x :=
  hx.mono fun _ _ sameArrays =>
    ⟨Nat.le_of_eq sameArrays.mixings.symm, sameArrays.arena, fun arena _ _ _ found _ =>
      sameArrays.arrays arena found⟩

theorem storeFitting_shuns (index : Int32) (descriptor : String) (element : Value)
    (refused : Option String) :
    Tame (Machine.Shuns kind) (storeFitting kind r index descriptor element refused) := by
  cases refused with
  | some source => exact (raiseMisfit_leavesArrays source descriptor).shuns
  | none =>
      constructor
      · intro s m
        unfold after
        rw [storeFitting_run]
        cases found : m.world.heap.array r with
        | error e => exact Std.Refl.refl m
        | ok a =>
            cases stored : m.world.heap.storeElement r index element with
            | error e => exact Std.Refl.refl m
            | ok done =>
                obtain ⟨inside, heap⟩ := done
                obtain ⟨b, read, ⟨-, rfl⟩ | ⟨i, -, rfl⟩⟩ := Heap.storeElement_ok stored
                · exact ⟨Nat.le_add_right _ _, id, fun _ _ _ _ held _ => held⟩
                · refine ⟨Nat.le_add_right _ _, fun arena => arena.replace,
                    fun _ unmixed r' a' held other => ?_⟩
                  have own : mixing kind a.kind = 0 := Nat.add_eq_left.mp unmixed
                  refine Heap.array_kept (Heap.array_eq_ok.mp found) ?_ held
                  rintro ⟨⟩
                  exact other own
      · intro s m stop m' h
        rw [storeFitting_run] at h
        split at h
        · cases h
        · cases h
          exact ⟨_, rfl⟩
        · cases h
          exact ⟨_, rfl⟩

/-- An instruction that stores into an array leaves those of other kinds alone, or it is counted. -/
theorem arrayStore_shuns (kind : ElementKind) : Tame (Machine.Shuns kind) (arrayStore kind) := by
  refine pop_leavesArrays.shuns.bind fun v => popInt_leavesArrays.shuns.bind fun index => ?_
  refine (popArrayAt_leavesArrays index).shuns.bind fun array => ?_
  split
  · exact .pure _
  · refine heap_leavesArrays.shuns.bind fun h => (Tame.ofExcept _).bind fun descriptor => ?_
    refine (Tame.ofExcept _).bind fun element => ?_
    dsimp only
    split
    · exact (misfit_leavesArrays _ _).shuns.bind fun refused => storeFitting_shuns _ _ _ _
    · exact (Tame.pure _).bind fun refused => storeFitting_shuns _ _ _ _

theorem popInt_took {n : Int32} (h : popInt s m = .ok n m') : ∃ o, Took m [o] m' := by
  obtain ⟨v, mid, popped, h⟩ := bind_eq_ok h
  obtain ⟨o, -, took⟩ := pop_took popped
  obtain ⟨-, rfl⟩ := ofExcept_eq_ok h
  exact ⟨o, took⟩

/-- An array is popped that an index is within, or an exception is raised. -/
theorem popArrayAt_cases {index : Int32} {array : Option Handle}
    (h : popArrayAt index s m = .ok array m') :
    (array = none ∧ m'.thread.pending ≠ none) ∨
      ∃ r o, array = some r ∧ o.value = .array r ∧ Took m [o] m' := by
  obtain ⟨v, mid, popped, h⟩ := bind_eq_ok h
  obtain ⟨o, value, took⟩ := pop_took popped
  split at h
  · obtain ⟨_, last, raised, h⟩ := bind_eq_ok h
    cases h
    exact .inl ⟨rfl, raise_pending raised⟩
  next r =>
    rw [bind_of_ok heap_run] at h
    obtain ⟨length, _, measured, rest⟩ := bind_eq_ok h
    obtain ⟨-, rfl⟩ := ofExcept_eq_ok measured
    cases inside : Heap.place? length index with
    | some place =>
        rw [inside] at rest
        cases rest
        exact .inr ⟨r, o, rfl, value, took⟩
    | none =>
        rw [inside] at rest
        obtain ⟨_, last, raised, rest⟩ := bind_eq_ok rest
        cases rest
        exact .inl ⟨rfl, raise_pending raised⟩
  · cases h

/-- What is popped behind two others is the third operand from the top. -/
theorem Took.third {o o' o'' : Operand} {a b c d : Machine} {v : Value} (first : Took a [o''] b)
    (second : Took b [o'] c) (third : Took c [o] d) (peeked : a.thread.peek 3 = .ok v) :
    v = o.value := by
  have split : a.thread.operands.toList = d.thread.operands.toList ++ [o, o', o''] :=
    ((first.trans second).trans third).split
  have size : a.thread.operands.size = d.thread.operands.size + 3 := by
    rw [← Array.length_toList, split]
    simp
  unfold Thread.peek at peeked
  split at peeked
  · cases peeked
  · have there : a.thread.operands[a.thread.operands.size - 3]? = some o := by
      rw [← Array.getElem?_toList, split, size]
      simp
    rw [there] at peeked
    cases peeked
    rfl

/-- An instruction that meets an array of another kind and is not counted has raised an exception, if
it does not stop. -/
theorem arrayStore_pending {a : ArrayEntry} (third : m.thread.peek 3 = .ok (.array r))
    (found : m.world.heap.array r = .ok a) (other : mixing kind a.kind ≠ 0)
    (h : arrayStore kind s m = .ok () m')
    (unmixed : m'.world.lapses.mixings = m.world.lapses.mixings) : m'.thread.pending ≠ none := by
  obtain ⟨v, m₁, value, h⟩ := bind_eq_ok h
  obtain ⟨index, m₂, place, h⟩ := bind_eq_ok h
  obtain ⟨array, m₃, popped, h⟩ := bind_eq_ok h
  obtain ⟨o'', -, first⟩ := pop_took value
  obtain ⟨o', second⟩ := popInt_took place
  obtain ⟨rfl, pending⟩ | ⟨r', o, rfl, value, popped⟩ := popArrayAt_cases popped
  · cases h
    exact pending
  · have same : r' = r := by
      have seen := first.third second popped third
      rw [value] at seen
      exact (Value.array.inj seen).symm
    subst same
    have world : m₃.world = m.world := by
      rw [popped.rest, second.rest, first.rest]
      rfl
    dsimp only at h
    rw [bind_of_ok heap_run] at h
    obtain ⟨descriptor, m₄, described, behind⟩ := bind_eq_ok h
    obtain ⟨-, rfl⟩ := ofExcept_eq_ok described
    obtain ⟨element, m₅, converted, store⟩ := bind_eq_ok behind
    obtain ⟨-, rfl⟩ := ofExcept_eq_ok converted
    have stores {refused : Option String}
        (run : storeFitting kind r' index descriptor element refused s m₅ = .ok () m') :
        m'.thread.pending ≠ none := by
      cases refused with
      | some source =>
          have raised : raiseMisfit source descriptor s m₅ = .ok () m' := run
          exact raise_pending raised
      | none =>
          rw [storeFitting_run, world, found] at run
          split at run
          next same _ =>
            cases same
            cases run
            exact absurd (Nat.add_eq_left.mp unmixed) other
          · cases run
          · cases run
    split at store
    · obtain ⟨refused, m₆, checked, last⟩ := bind_eq_ok store
      obtain ⟨rfl, -⟩ := misfit_ok checked
      exact stores last
    · obtain ⟨refused, m₆, granted, last⟩ := bind_eq_ok store
      cases granted
      exact stores last

end Exec

namespace Sample

theorem shelf_kinded : shelf.heap.Kinded := by
  rintro ⟨_ | _ | i⟩ a found
  · cases found
    refine ⟨by decide, fun v listed => ?_⟩
    obtain rfl : v = .null := by simpa using listed
    rfl
  · cases found
  · cases found

/-- A thread in front of a store of an int, an element of the array of objects. -/
def misplacing : Thread :=
  { storing with operands := #[⟨.array ⟨0⟩, 0⟩, ⟨.int 0, 0⟩, ⟨.int 5, 0⟩] }

/-- A method that makes an array for a long and stores an int into it. -/
def mixing : MethodDecl := yielding [0x04, 0xbc, 0x0b, 0x59, 0x03, 0x08, 0x4f, 0xb0]

end Sample

/-- Arrays hold elements of their kinds.  If all arrays do, and their descriptors say their kinds,
then after anything that guests do this is so again, unless an instruction has stored into an array
that is not for its elements.  And an instruction that meets such an array and does not store into it
has stopped in a fault or raised an exception, and all such arrays are what they were. -/
theorem elements_kinded {w w' : World} (arena : w.heap.Arena) (kinded : w.heap.Kinded)
    (work : ReflTransGen World.Unmixed w w') :
    w'.heap.Kinded ∧
    ∀ (kind : ElementKind) (s : Settings) (t : Thread) (r : Handle) (a : ArrayEntry),
      t.peek 3 = .ok (.array r) → w'.heap.array r = .ok a → mixing kind a.kind ≠ 0 →
      ((arrayStore kind).after s ⟨w', t⟩).world.lapses.mixings = w'.lapses.mixings →
      ((arrayStore kind).after s ⟨w', t⟩).world.heap.array r = .ok a ∧
      ((∃ e m', arrayStore kind s ⟨w', t⟩ = .error (.fault e) m') ∨
        ∃ m', arrayStore kind s ⟨w', t⟩ = .ok () m' ∧ m'.thread.pending ≠ none) := by
  obtain ⟨arena', kinded'⟩ : w'.heap.Arena ∧ w'.heap.Kinded := by
    induction work with
    | refl => exact ⟨arena, kinded⟩
    | tail _ last ih => exact last.kinded ih.1 ih.2
  refine ⟨kinded', fun kind s t r a third found other unmixed => ⟨?_, ?_⟩⟩
  · exact ((arrayStore_shuns kind).keeps s ⟨w', t⟩).arrays arena' unmixed found other
  · cases run : arrayStore kind s ⟨w', t⟩ with
    | ok _ m' =>
        rw [after_of_ok run] at unmixed
        exact .inr ⟨m', rfl, arrayStore_pending third found other run unmixed⟩
    | error stop m' =>
        obtain ⟨e, rfl⟩ := (arrayStore_shuns kind).stops run
        exact .inl ⟨e, m', rfl⟩

/-- An object is stored into an array of references.  Then an instruction for longs meets that array
and an int. -/
theorem elements_kinded_store :
    let w := ((step (Engine.host coreNatives 1)).after {} ⟨Sample.shelf, Sample.storing⟩).world
    let a : ArrayEntry := ⟨"[Ljava/lang/Object;", .reference, #[.object ⟨1⟩]⟩
    w.heap.Kinded ∧ w.heap.array ⟨0⟩ = .ok a ∧
      ((arrayStore .long).after {} ⟨w, Sample.misplacing⟩).world.heap.array ⟨0⟩ = .ok a := by
  intro w a
  have found : w.heap.array ⟨0⟩ = .ok a := by rfl
  have unmixed : w.lapses.mixings = Sample.shelf.lapses.mixings := by rfl
  have refused : ((arrayStore .long).after {} ⟨w, Sample.misplacing⟩).world.lapses.mixings =
      w.lapses.mixings := by rfl
  have work : ReflTransGen World.Unmixed Sample.shelf w :=
    .single ⟨.instruction Sample.storing {} 1, unmixed⟩
  obtain ⟨kinded, refuses⟩ := elements_kinded Sample.shelf_arena Sample.shelf_kinded work
  exact ⟨kinded, found, (refuses .long {} Sample.misplacing ⟨0⟩ a rfl found (by decide) refused).1⟩

/-- A method that makes an array of longs and stores an int into it leaves the int there. -/
theorem elements_kinded_mixing :
    let m' := (Engine.call coreNatives 9 Sample.cls Sample.mixing []).after {} Sample.outside
    Sample.outside.world.heap.Arena ∧ Sample.outside.world.heap.Kinded ∧
    Sample.outside.world.Guest m'.world ∧
    (∃ a, m'.world.heap.array ⟨0⟩ = .ok a ∧ a.kind = .long ∧
      a.elements.toList.map Value.kind = [.int]) ∧
    ¬ m'.world.heap.Kinded := by
  intro m'
  have seen : (m'.world.heap.array ⟨0⟩).toOption.map
      (fun a => (a.kind, a.elements.toList.map Value.kind)) = some (.long, [.int]) := by
    decide +kernel
  refine ⟨.blank none none, nofun, .call _ {} 9 _ _ _, ?_⟩
  cases found : m'.world.heap.array ⟨0⟩ with
  | error e =>
      rw [found] at seen
      cases seen
  | ok a =>
      rw [found] at seen
      obtain ⟨long, ints⟩ := Prod.mk.inj (Option.some.inj seen)
      refine ⟨⟨a, rfl, long, ints⟩, fun kinded => ?_⟩
      obtain ⟨v, elements, int⟩ := List.map_eq_singleton_iff.mp ints
      have admitted := (kinded _ a found).elements v
        (by rw [← Array.mem_toList_iff, elements]; exact List.mem_singleton_self v)
      rw [long] at admitted
      cases v with
      | int => cases admitted
      | _ => cases int

end JavaMachine
