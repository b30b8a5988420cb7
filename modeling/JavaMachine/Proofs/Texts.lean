import JavaMachine.Proofs.FieldTypes
import JavaMachine.Proofs.HeapCalls

/-!
# Strings keep their texts

A string that a host has made is read as the text that it was made of.  It stays so while the host
calls the heap in any other way: an allocation takes a vacant handle, and the other calls change one
entry each.  So only a call on the string or on the array of its characters could change what is
read, and calls that spare both of them leave it.
-/

namespace JavaMachine

open Exec

/-- Between two machines the books of the heap stay in order, and under a handle there is what there
was. -/
def Machine.Leaves (r : Handle) (m m' : Machine) : Prop :=
  m.world.heap.Arena → m'.world.heap.Arena ∧
    ∀ c, m.world.heap.cell? r = some c → m'.world.heap.cell? r = some c

instance {r : Handle} : AllowsReports (Machine.Leaves r) where
  refl _ arena := ⟨arena, fun _ found => found⟩
  trans _ _ _ first second arena :=
    have before := first arena
    have after := second before.1
    ⟨after.1, fun c found => after.2 c (before.2 c found)⟩
  reports _ _ _ arena := ⟨arena, fun _ found => found⟩
  remembers _ _ arena := ⟨arena, fun _ found => found⟩

/-- The cell of another handle may be replaced. -/
theorem Machine.leaves_replace {r r' : Handle} (other : r' ≠ r) (e : Entry) (m : Machine)
    (lapses : Lapses) : m.Leaves r
      { m with world := { m.world with heap := m.world.heap.replace r' e, lapses } } :=
  fun arena => ⟨arena.replace, fun c found => by rwa [Heap.cell?_replace, if_neg other.symm]⟩

namespace HeapCall

variable {r chars : Handle} {s : Settings} {m : Machine}

/-- A call neither changes the entry of a handle nor frees it. -/
def Spares (r : Handle) : HeapCall → Prop
  | release r' | setField r' _ _ | storeElement r' _ _ => r' ≠ r
  | allocateObject _ _ _ | allocateArray _ _ _ | allocateArrayOf _ _ _ | cloneArray _ => True

/-- An allocation leaves what is there. -/
theorem allocate_leaves {g : Heap → Except Fault (Handle × Heap)}
    (inserts : ∀ {h r h'}, g h = .ok (r, h') → ∃ e reserved, h.insert e reserved = .ok (r, h')) :
    Keeps (Machine.Leaves r) (do return .made (← allocate g) : Exec HeapAnswer) := by
  refine Keeps.bind (fun s m => allocate_allowed fun r' heap made arena => ?_) fun _ => .pure _
  obtain ⟨e, reserved, inserted⟩ := inserts made
  exact ⟨arena.insert inserted, fun _ => (arena.grown inserted).kept⟩

/-- A call that spares a handle leaves what is there under it. -/
theorem perform_leaves {call : HeapCall} (spares : call.Spares r) :
    Keeps (Machine.Leaves r) call.perform := by
  cases call with
  | allocateObject cls fields reserved => exact allocate_leaves fun made => ⟨_, _, made⟩
  | allocateArray kind descriptor length =>
      exact allocate_leaves fun made => ⟨_, _, Heap.allocateArray_ok made⟩
  | allocateArrayOf kind descriptor elements => exact allocate_leaves fun made => ⟨_, _, made⟩
  | cloneArray r' =>
      refine allocate_leaves fun made => ?_
      obtain ⟨a, -, inserted⟩ := Heap.cloneArray_ok made
      exact ⟨_, _, inserted⟩
  | release r' =>
      intro s m
      refine Keeps.bind_after (heap_keeps s m) fun h mid read => ?_
      cases read
      refine Keeps.ofExcept_after fun heap freed arena => ⟨arena.release freed, fun c found => ?_⟩
      show heap.cell? r = some c
      rwa [Heap.cell?_release freed, if_neg (Ne.symm spares)]
  | setField r' f v =>
      refine Keeps.bind (fun s m => setField_allowed fun heap stored => ?_) fun _ => .pure _
      obtain ⟨cls, slots, -, -, rfl⟩ := Heap.setField_ok stored
      exact m.leaves_replace spares _ _
  | storeElement r' index v =>
      intro s m
      refine Keeps.bind_after (heap_keeps s m) fun h mid read => ?_
      cases read
      refine Keeps.ofExcept_after fun ⟨inside, heap⟩ stored => ?_
      obtain ⟨a, -, ⟨-, rfl⟩ | ⟨i, -, rfl⟩⟩ := Heap.storeElement_ok stored
      · exact Std.Refl.refl m
      · exact m.leaves_replace spares _ _

/-- Calls that spare a handle leave what is there under it. -/
theorem performAll_leaves : ∀ {calls : List HeapCall}, (∀ call ∈ calls, call.Spares r) →
    Keeps (Machine.Leaves r) (performAll calls)
  | [], _ => .pure _
  | call :: calls, spare => by
      refine heap_keeps.bind fun h => ?_
      refine (perform_leaves (spare call List.mem_cons_self)).attempt.bind fun answer => ?_
      exact (performAll_leaves fun call listed => spare call (List.mem_cons_of_mem _ listed)).bind
        fun _ => .pure _

/-- Calls that are made one after the other always have a result. -/
theorem performAll_ends : ∀ (calls : List HeapCall) {m : Machine},
    ∃ reserved m', performAll calls s m = .ok reserved m'
  | [], m => ⟨[], m, rfl⟩
  | call :: calls, m => by
      have ends := perform_ends (s := s) (m := m) call
      obtain ⟨answer, mid, run⟩ : ∃ answer mid, attempt call.perform s m = .ok answer mid := by
        cases run : call.perform s m with
        | ok answer mid => exact ⟨_, _, attempt_of_ok run⟩
        | error stop mid =>
            rw [run] at ends
            cases ends with
            | failed => exact ⟨_, _, attempt_of_fault run⟩
      obtain ⟨reserved, m', rest⟩ := performAll_ends calls (m := mid)
      exact ⟨_, m', (bind_of_ok heap_run).trans ((bind_of_ok run).trans (bind_of_ok rest))⟩

/-- A string spells its text whatever calls are made that spare both its cells. -/
theorem performAll_spells {text : String} {calls : List HeapCall} (arena : m.world.heap.Arena)
    (spells : m.world.heap.Spells r chars text)
    (spare : ∀ call ∈ calls, call.Spares r ∧ call.Spares chars) :
    ∃ reserved m', performAll calls s m = .ok reserved m' ∧ m'.world.heap.Spells r chars text := by
  obtain ⟨reserved, m', run⟩ := performAll_ends (s := s) calls (m := m)
  have string := (performAll_leaves fun call listed => (spare call listed).1).of_ok run arena
  have characters := (performAll_leaves fun call listed => (spare call listed).2).of_ok run arena
  exact ⟨reserved, m', run, spells.of_kept string.2 characters.2⟩

end HeapCall

namespace Sample

/-- A letter and the clef, which is outside the basic plane. -/
def score : String := String.ofList ['A', Char.ofNat 0x1D11E]

/-- A machine with the bootstrap classes and memory for two entries. -/
def scored : Machine :=
  { gauged with world := { gauged.world with heap := { capacity := some 2 } } }

end Sample

/-- Strings are read as they were made.  Let the class of strings be the one that the machine brings
along, and let there be memory for two more entries.  Then a string is made of any text, and it is
read as that text, by way of the array in its field.  It is read so after any further calls of the
heap, failed ones and allocations of any kind among them, if none of them stores into one of its two
entries or frees one. -/
theorem Exec.newString_reads {s : Settings} {m : Machine} (boot : m.world.library.Bootstrapped)
    (memo : m.world.MemoAgrees) (arena : m.world.heap.Arena) (room : m.world.heap.HasRoom 2)
    (text : String) :
    ∃ r chars m', newString text s m = .ok r m' ∧
      m'.world.heap.fieldByName r "value" = .ok (some (.array chars)) ∧
      m'.world.heap.readString r = .ok (some text) ∧
      ∀ (calls : List HeapCall) (s' : Settings),
        (∀ call ∈ calls, call.Spares r ∧ call.Spares chars) →
        ∃ reserved m'', HeapCall.performAll calls s' m' = .ok reserved m'' ∧
          m''.world.heap.readString r = .ok (some text) := by
  obtain ⟨r, m', made⟩ := newString_granted (s := s) boot memo arena room text
  obtain ⟨chars, e, extended, spells⟩ := newString_spells boot memo arena made
  refine ⟨r, chars, m', made, spells.fieldByName, spells.readString, fun calls s' spare => ?_⟩
  obtain ⟨reserved, m'', run, spells⟩ :=
    HeapCall.performAll_spells (s := s') extended.arena spells spare
  exact ⟨reserved, m'', run, spells.readString⟩

/-- The clef becomes a pair of surrogates.  The string fills the heap: an array is refused after it,
and an object is made past the capacity. -/
theorem Exec.newString_reads_score :
    Text.units Sample.score = [0x41, 0xD834, 0xDD1E] ∧
    ∃ r m', newString Sample.score {} Sample.scored = .ok r m' ∧
      m'.world.heap.readString r = .ok (some Sample.score) ∧
      ∃ reserved m'', HeapCall.performAll
          [.allocateArray .int "[I" 1, .allocateObject Sample.cls [] true] {} m' =
        .ok reserved m'' ∧ m''.world.heap.readString r = .ok (some Sample.score) := by
  have registered : Sample.gauged.world.Registered :=
    Bootstrap.defineAll_registered Sample.gauged_registered
      (World.Blank.registered ⟨rfl, rfl, rfl, rfl⟩)
  have library : Sample.scored.world.library = Sample.gauged.world.library := by
    simp only [Sample.scored]
  have boot : Sample.scored.world.library.Bootstrapped := by
    rw [library]
    exact fun spec listed _ => Bootstrap.defineAll_provides Sample.gauged_registered
      (by decide +kernel) (List.mem_append_left _ listed)
  have memo : Sample.scored.world.MemoAgrees := by
    intro key f known
    simp only [Sample.scored, registered.memo, List.lookup_nil] at known
    cases known
  have heap : Sample.scored.world.heap = { capacity := some 2 } := by simp only [Sample.scored]
  have arena : Sample.scored.world.heap.Arena := heap ▸ .blank (some 2) none
  have room : Sample.scored.world.heap.HasRoom 2 := by
    rw [heap]
    rintro capacity ⟨⟩
    exact Nat.le_refl 2
  obtain ⟨r, chars, m', made, held, read, keeps⟩ :=
    newString_reads (s := {}) boot memo arena room Sample.score
  refine ⟨by decide +kernel, r, m', made, read, keeps _ {} ?_⟩
  simp [HeapCall.Spares]

end JavaMachine
