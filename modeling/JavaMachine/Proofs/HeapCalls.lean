import JavaMachine.Proofs.PendingChanges

/-!
# Histories of a heap

A host may call the operations of a heap in any order and with any handles, live ones and others.
`HeapCall` lists them, and `performAll` makes calls one after the other, whether they succeed or
not.  However the calls are chosen, the books of the heap stay in order, an allocation disturbs
nothing that is alive, a call that fails changes nothing, and the entries that were not made by
reserved allocations stay within the capacity.

To tell the two kinds of entries apart, `performAll` answers the serial numbers of the entries that
were made by reserved allocations.
-/

namespace JavaMachine

/-- A call of a heap. -/
inductive HeapCall where
  | allocateObject (cls : LoadedClass) (fields : List FieldDecl) (reserved : Bool)
  | allocateArray (kind : ElementKind) (descriptor : String) (length : Nat)
  | allocateArrayOf (kind : ElementKind) (descriptor : String) (elements : Array Value)
  | cloneArray (r : Handle)
  | release (r : Handle)
  | setField (r : Handle) (f : FieldDecl) (v : Value)
  | storeElement (r : Handle) (index : Int32) (v : Value)

/-- What a call of a heap answers. -/
inductive HeapAnswer where
  /-- The handle of a new entry. -/
  | made (r : Handle)
  | done
  /-- The index is out of bounds. -/
  | missed

namespace HeapCall

open Exec

/-- Makes a call on the heap of a machine. -/
def perform : HeapCall → Exec HeapAnswer
  | allocateObject cls fields reserved =>
      return .made (← allocate (·.allocateObject cls fields reserved))
  | allocateArray kind descriptor length =>
      return .made (← allocate (·.allocateArray kind descriptor length))
  | allocateArrayOf kind descriptor elements =>
      return .made (← allocate (·.allocateArrayOf kind descriptor elements))
  | cloneArray r => return .made (← allocate (·.cloneArray r))
  | release r => do
      setHeap (← ofExcept ((← heap).release r))
      return .done
  | setField r f v => do
      Exec.setField r f v
      return .done
  | storeElement r index v => do
      let (stored, heap) ← ofExcept ((← heap).storeElement r index v)
      setHeap heap
      return if stored then .done else .missed

/-- Whether a call is a reserved allocation. -/
def isReserved : HeapCall → Bool
  | allocateObject _ _ reserved => reserved
  | _ => false

/-- The serial number of the entry that a call has made by a reserved allocation, if it has. -/
def reservation (call : HeapCall) (serial : Nat) : Except Fault HeapAnswer → List Nat
  | .ok (.made _) => if call.isReserved then [serial] else []
  | _ => []

/-- Makes calls one after the other.  The answer are the serial numbers of the entries that reserved
allocations have made. -/
def performAll : List HeapCall → Exec (List Nat)
  | [] => return []
  | call :: calls => do
      let serial := (← heap).made
      let answer ← attempt call.perform
      return call.reservation serial answer ++ (← performAll calls)

/-! ## One call -/

/-- What a call that has a result does to a heap. -/
inductive Served (h : Heap) (reserved : Bool) : HeapAnswer → Heap → Prop
  | made {e : Entry} {r : Handle} {h' : Heap} (inserted : h.insert e reserved = .ok (r, h')) :
      Served h reserved (.made r) h'
  | released {r : Handle} {h' : Heap} (released : h.release r = .ok h') : Served h reserved .done h'
  | replaced (r : Handle) (e : Entry) : Served h reserved .done (h.replace r e)
  | missed : Served h reserved .missed h

theorem Served.unchanged {h h' : Heap} {reserved : Bool} (served : Served h reserved .missed h') :
    h' = h := by
  cases served
  rfl

variable {s : Settings} {m : Machine}

/-- How a call ends. -/
inductive Ends (m : Machine) (reserved : Bool) : EStateM.Result Stop Machine HeapAnswer → Prop
  | ok {answer : HeapAnswer} {m' : Machine} (monitors : m'.world.monitors = m.world.monitors)
      (served : Served m.world.heap reserved answer m'.world.heap) : Ends m reserved (.ok answer m')
  | failed {f : Fault} {m' : Machine} (heap : m'.world.heap = m.world.heap) :
      Ends m reserved (.error (.fault f) m')

theorem allocate_ends {g : Heap → Except Fault (Handle × Heap)} {reserved : Bool}
    (inserts : ∀ {h r h'}, g h = .ok (r, h') → ∃ e, h.insert e reserved = .ok (r, h')) :
    Ends m reserved ((do return .made (← allocate g) : Exec HeapAnswer) s m) := by
  cases made : g m.world.heap with
  | ok done =>
      obtain ⟨r, h⟩ := done
      obtain ⟨e, inserted⟩ := inserts made
      rw [bind_of_ok (allocate_of_ok made)]
      exact .ok rfl (.made inserted)
  | error f =>
      obtain ⟨events, refusals, run⟩ := allocate_of_error (s := s) made
      rw [bind_of_error run]
      exact .failed rfl

theorem perform_ends (call : HeapCall) : Ends m call.isReserved (call.perform s m) := by
  cases call with
  | allocateObject cls fields reserved => exact allocate_ends fun made => ⟨_, made⟩
  | allocateArray kind descriptor length =>
      exact allocate_ends fun made => ⟨_, Heap.allocateArray_ok made⟩
  | allocateArrayOf kind descriptor elements => exact allocate_ends fun made => ⟨_, made⟩
  | cloneArray r =>
      refine allocate_ends fun made => ?_
      obtain ⟨a, -, inserted⟩ := Heap.cloneArray_ok made
      exact ⟨_, inserted⟩
  | release r =>
      rw [perform, bind_of_ok heap_run]
      cases freed : m.world.heap.release r with
      | error f => exact .failed rfl
      | ok h => exact .ok rfl (.released freed)
  | setField r f v =>
      rw [perform, Exec.setField, bind_assoc, bind_of_ok heap_run]
      cases stored : m.world.heap.setField r f v with
      | error e => exact .failed rfl
      | ok h =>
          obtain ⟨cls, slots, -, -, rfl⟩ := Heap.setField_ok stored
          exact .ok rfl (.replaced _ _)
  | storeElement r index v =>
      rw [perform, bind_of_ok heap_run]
      cases stored : m.world.heap.storeElement r index v with
      | error e => exact .failed rfl
      | ok answer =>
          obtain ⟨inside, h⟩ := answer
          obtain ⟨a, -, ⟨rfl, rfl⟩ | ⟨i, rfl, rfl⟩⟩ := Heap.storeElement_ok stored
          · exact .ok rfl .missed
          · exact .ok rfl (.replaced _ _)

/-! ## Any number of calls -/

/-- The books of a heap are in order, and the entries that were not made by reserved allocations are
within the capacity. -/
structure Kept (capacity : Option Nat) (reserved : List Nat) (h : Heap) : Prop where
  /-- The books are in order. -/
  arena : h.Arena
  /-- The heap has the capacity. -/
  limit : h.capacity = capacity
  /-- The other entries are within the capacity. -/
  bounded : ∀ c, capacity = some c → h.count (fun serial => serial ∉ reserved) ≤ c

variable {capacity : Option Nat} {reserved : List Nat} {h h' : Heap}

theorem Kept.served (kept : Kept capacity reserved h) {call : HeapCall} {answer : HeapAnswer}
    (served : Served h call.isReserved answer h') :
    Kept capacity (call.reservation h.made (.ok answer) ++ reserved) h' := by
  cases served with
  | @made e r _ inserted =>
      have grown := kept.arena.grown inserted
      refine ⟨kept.arena.insert inserted, (Heap.insert_limits inserted).1.trans kept.limit,
        fun c some => ?_⟩
      rw [grown.count]
      cases past : call.isReserved with
      | true =>
          -- the new entry is among the reserved ones
          have fewer : h.count (fun serial => serial ∉ h.made :: reserved) ≤
              h.count fun serial => serial ∉ reserved :=
            Array.countP_mono_left fun cell _ => by cases cell <;> simp
          have bounded := kept.bounded c some
          simp only [reservation, past, if_true, List.cons_append, List.nil_append,
            List.mem_cons, true_or, not_true, decide_false, Bool.false_eq_true, if_false] at *
          omega
      | false =>
          -- all entries together were fewer than the capacity
          rw [past] at inserted
          have room := Heap.insert_within inserted (kept.limit.trans some)
          rw [kept.arena.live, Heap.occupied_eq_count] at room
          have fewer : h.count (fun serial => serial ∉ reserved) ≤ h.count fun _ => true :=
            Array.countP_mono_left fun cell _ => by cases cell <;> simp
          simp only [reservation, past, Bool.false_eq_true, if_false, List.nil_append]
          split <;> omega
  | released released =>
      refine ⟨kept.arena.release released, ?_, fun c some => ?_⟩
      · obtain ⟨-, -, rfl⟩ := Heap.release_ok released
        exact kept.limit
      · obtain ⟨cell, -, counted⟩ := Heap.count_release released fun serial => serial ∉ reserved
        have bounded := kept.bounded c some
        rw [counted] at bounded
        exact Nat.le_trans (Nat.le_add_right _ _) bounded
  | replaced r e =>
      refine ⟨kept.arena.replace, kept.limit, fun c some => ?_⟩
      exact Nat.le_trans (Nat.le_of_eq (Heap.count_replace _)) (kept.bounded c some)
  | missed => exact kept

/-- Any number of calls keeps the books in order. -/
theorem performAll_kept (calls : List HeapCall) :
    ∀ {m : Machine} {earlier : List Nat}, Kept capacity earlier m.world.heap →
      ∃ later m', performAll calls s m = .ok later m' ∧
        Kept capacity (later ++ earlier) m'.world.heap := by
  induction calls with
  | nil =>
      intro m earlier kept
      exact ⟨[], m, rfl, kept⟩
  | cons call calls ih =>
      intro m earlier kept
      have next {answer : Except Fault HeapAnswer} {mid : Machine}
          (run : attempt call.perform s m = .ok answer mid)
          (kept : Kept capacity (call.reservation m.world.heap.made answer ++ earlier)
            mid.world.heap) :
          ∃ later m', performAll (call :: calls) s m = .ok later m' ∧
            Kept capacity (later ++ earlier) m'.world.heap := by
        obtain ⟨later, m', rest, kept⟩ := ih kept
        refine ⟨call.reservation m.world.heap.made answer ++ later, m', ?_, ?_, kept.limit, ?_⟩
        · rw [performAll, bind_of_ok heap_run, bind_of_ok run, bind_of_ok rest]
          rfl
        · exact kept.arena
        · intro c some
          refine le_of_eq_of_le (Array.countP_congr fun cell _ => ?_) (kept.bounded c some)
          cases cell <;> simp [and_left_comm]
      have ends := perform_ends (s := s) (m := m) call
      cases run : call.perform s m with
      | ok answer mid =>
          rw [run] at ends
          cases ends with
          | ok _ served => exact next (attempt_of_ok run) (kept.served served)
      | error stop mid =>
          rw [run] at ends
          cases ends with
          | failed same => exact next (attempt_of_fault run) (same ▸ kept)

/-- After any calls on a blank heap, failed ones and such with dangling handles among them, the
number of live entries is the number of occupied cells, and the list of empty cells has each of them
once and no others.  The entries that were not made by reserved allocations are within the capacity.
And whatever is called next: an allocation takes a handle that was not live and leaves every live
entry as it is, with its class, its fields or elements and the serial number that names its monitor;
and a call that fails or misses leaves the heap as it is. -/
theorem arena_sound (maxArrayLength : Option Nat)
    (blank : m.world.heap = { capacity, maxArrayLength }) (calls : List HeapCall) :
    ∃ reserved m', performAll calls s m = .ok reserved m' ∧
      m'.world.heap.live = m'.world.heap.occupied ∧
      m'.world.heap.free.Nodup ∧
      (∀ i, i ∈ m'.world.heap.free ↔ m'.world.heap.cells[i]? = some none) ∧
      (∀ c, capacity = some c →
        m'.world.heap.count (fun serial => serial ∉ reserved) ≤ c) ∧
      ∀ call : HeapCall,
        (∀ r m'', call.perform s m' = .ok (.made r) m'' →
          m'.world.heap.cell? r = none ∧
          (∀ r' cell, m'.world.heap.cell? r' = some cell →
            m''.world.heap.cell? r' = some cell) ∧
          m''.world.monitors = m'.world.monitors) ∧
        (∀ stop m'', call.perform s m' = .error stop m'' →
          m''.world.heap = m'.world.heap) ∧
        ∀ m'', call.perform s m' = .ok .missed m'' → m''.world.heap = m'.world.heap := by
  have start : Kept capacity [] m.world.heap := by
    rw [blank]
    exact ⟨.blank capacity maxArrayLength, rfl, fun c _ => by simp [Heap.count]⟩
  obtain ⟨reserved, m', run, kept⟩ := performAll_kept (s := s) calls start
  rw [List.append_nil] at kept
  refine ⟨reserved, m', run, kept.arena.live, kept.arena.nodup, kept.arena.empty, kept.bounded,
    fun call => ?_⟩
  have ends := perform_ends (s := s) (m := m') call
  refine ⟨fun r m'' made => ?_, fun stop m'' failed => ?_, fun m'' missed => ?_⟩
  · rw [made] at ends
    cases ends with
    | ok monitors served =>
        cases served with
        | made inserted =>
            have grown := kept.arena.grown inserted
            exact ⟨grown.vacant, fun _ _ => grown.kept, monitors⟩
  · rw [failed] at ends
    cases ends with
    | failed same => exact same
  · rw [missed] at ends
    cases ends with
    | ok _ served => exact served.unchanged

/-- An array fills a heap for one entry, an object is made past the capacity, and the array is freed
twice before its cell is used again. -/
def refilling : List HeapCall :=
  let cls : LoadedClass :=
    { name := "A", superName := none, interfaces := [], flags := ⟨0⟩, pool := .blank, methods := []
      fields := [], id := 0 }
  [.allocateArray .int "[I" 2, .allocateArray .int "[I" 2, .allocateObject cls [] true,
    .release ⟨0⟩, .release ⟨0⟩, .release ⟨1⟩, .allocateObject cls [] true,
    .allocateArray .int "[I" 2]

theorem arena_sound_refilling :
    ∃ m', performAll refilling {} ⟨{ heap := { capacity := some 1 } }, { id := 0 }⟩ =
      .ok [1, 2] m' ∧ m'.world.heap.live = m'.world.heap.occupied ∧
      m'.world.heap.count (fun serial => serial ∉ [1, 2]) ≤ 1 := by
  obtain ⟨reserved, m', run, live, -, -, bounded, -⟩ :=
    arena_sound (s := {}) (m := ⟨{ heap := { capacity := some 1 } }, { id := 0 }⟩) none rfl refilling
  have answer : ∃ m', performAll refilling {} ⟨{ heap := { capacity := some 1 } }, { id := 0 }⟩ =
    .ok [1, 2] m' := ⟨_, rfl⟩
  obtain ⟨last, same⟩ := answer
  cases same.symm.trans run
  exact ⟨_, run, live, bounded 1 rfl⟩

end HeapCall

end JavaMachine
