import JavaMachine.Heap
import Mathlib.Data.List.Nodup

/-!
# The arena behind the heap

A heap keeps the same thing three times: in its cells, in the list of empty cells and in the number
of live entries.  `Heap.Arena` says that the three agree, and that no two entries have one serial
number.  Whatever the heap does preserves that, and is described here by what it does to the cell of
every handle: `Heap.Grown` for an allocation, `cell?_replace` for a change of an entry, and
`cell?_release` for freeing one.  `Heap.Extended` is what several allocations come to.
-/

namespace JavaMachine.Heap

variable {h h' : Heap} {r r' : Handle} {e : Entry} {c : Cell} {reserved : Bool}

/-- The number of entries whose serial number satisfies a condition. -/
def count (h : Heap) (p : Nat → Bool) : Nat := h.cells.countP fun cell => cell.any (p ·.serial)

/-- The number of occupied cells. -/
def occupied (h : Heap) : Nat := h.cells.countP Option.isSome

theorem occupied_eq_count : h.occupied = h.count fun _ => true := by
  refine Array.countP_congr fun cell _ => ?_
  cases cell <;> simp

/-- The books of a heap agree with its cells. -/
structure Arena (h : Heap) : Prop where
  /-- The number of live entries is right. -/
  live : h.live = h.occupied
  /-- No empty cell is listed twice. -/
  nodup : h.free.Nodup
  /-- The listed cells are the empty ones. -/
  empty : ∀ i, i ∈ h.free ↔ h.cells[i]? = some none
  /-- Every entry has been counted when it was made. -/
  serial : ∀ {r c}, h.cell? r = some c → c.serial < h.made
  /-- No two entries have one serial number. -/
  distinct : ∀ {r r' c c'}, h.cell? r = some c → h.cell? r' = some c' → c.serial = c'.serial →
    r = r'

/-! ## Cells -/

theorem cell?_eq_some : h.cell? r = some c ↔ h.cells[r.index]? = some (some c) := by
  simp only [cell?, Option.join_eq_some_iff]

theorem cell_eq_ok : h.cell r = .ok c ↔ h.cell? r = some c := by
  unfold cell
  cases h.cell? r <;> simp

theorem entry_eq_ok : h.entry r = .ok e ↔ ∃ serial, h.cell? r = some ⟨serial, e⟩ := by
  unfold entry cell
  cases found : h.cell? r with
  | none => simp [Except.map]
  | some c => cases c; simp [Except.map]

theorem object_eq_ok {cls : LoadedClass} {slots : List Slot} :
    h.object r = .ok (cls, slots) ↔ h.entry r = .ok (.object cls slots) := by
  unfold object
  cases found : h.entry r with
  | error f => simp [bind, Except.bind]
  | ok e => cases e <;> simp [bind, Except.bind]

theorem array_eq_ok {a : ArrayEntry} : h.array r = .ok a ↔ h.entry r = .ok (.array a) := by
  unfold array
  cases found : h.entry r with
  | error f => simp [bind, Except.bind]
  | ok e => cases e <;> simp [bind, Except.bind]

/-! ## Allocation -/

/-- An allocation has put an entry under a handle. -/
structure Grown (h : Heap) (e : Entry) (r : Handle) (h' : Heap) : Prop where
  /-- The handle was free. -/
  vacant : h.cell? r = none
  /-- It has the entry now, and every other one has what it had. -/
  cells : ∀ r', h'.cell? r' = if r' = r then some ⟨h.made, e⟩ else h.cell? r'
  /-- One more entry has been made. -/
  made : h'.made = h.made + 1
  /-- The new entry is counted with those before. -/
  count : ∀ p, h'.count p = h.count p + if p h.made then 1 else 0

theorem Grown.kept (grown : Grown h e r h') (found : h.cell? r' = some c) :
    h'.cell? r' = some c := by
  have other : r' ≠ r := by
    rintro rfl
    simp [grown.vacant] at found
  simp [grown.cells, other, found]

/-- After an allocation an entry is an old one or the new one. -/
theorem Grown.entry_cases {e' : Entry} (grown : Grown h e r h') (found : h'.entry r' = .ok e') :
    h.entry r' = .ok e' ∨ e' = e := by
  obtain ⟨serial, cell⟩ := entry_eq_ok.mp found
  rw [grown.cells] at cell
  split at cell
  · cases cell
    exact .inr rfl
  · exact .inl (entry_eq_ok.mpr ⟨serial, cell⟩)

/-- What an allocation that is not refused does to the parts of the heap. -/
theorem insert_cases (hi : h.insert e reserved = .ok (r, h')) :
    (∃ i free, h.free = i :: free ∧ r = ⟨i⟩ ∧
      h' = { h with cells := h.cells.setIfInBounds i (some ⟨h.made, e⟩), free,
                    live := h.live + 1, made := h.made + 1 }) ∨
    (h.free = [] ∧ r = ⟨h.cells.size⟩ ∧
      h' = { h with cells := h.cells.push (some ⟨h.made, e⟩),
                    live := h.live + 1, made := h.made + 1 }) := by
  simp only [insert] at hi
  split at hi
  · cases hi
  · split at hi
    next i free listed =>
      cases hi
      exact .inl ⟨i, free, listed, rfl, rfl⟩
    next listed =>
      cases hi
      exact .inr ⟨listed, rfl, rfl⟩

/-- An entry is only made within the capacity, unless the allocation is reserved. -/
theorem insert_within {capacity : Nat} (hi : h.insert e false = .ok (r, h'))
    (bounded : h.capacity = some capacity) : h.live < capacity := by
  refine Nat.lt_of_not_le fun full => ?_
  simp [insert, bounded, Option.filter, full] at hi

theorem insert_limits (hi : h.insert e reserved = .ok (r, h')) :
    h'.capacity = h.capacity ∧ h'.maxArrayLength = h.maxArrayLength := by
  obtain ⟨i, free, -, -, rfl⟩ | ⟨-, -, rfl⟩ := insert_cases hi <;> exact ⟨rfl, rfl⟩

theorem insert_live (hi : h.insert e reserved = .ok (r, h')) : h'.live = h.live + 1 := by
  obtain ⟨i, free, -, -, rfl⟩ | ⟨-, -, rfl⟩ := insert_cases hi <;> rfl

/-- There is memory for so many more entries. -/
def HasRoom (h : Heap) (n : Nat) : Prop :=
  ∀ capacity, h.capacity = some capacity → h.live + n ≤ capacity

/-- In a heap without a capacity there is memory for any number of entries. -/
theorem HasRoom.of_unbounded (free : h.capacity = none) (n : Nat) : h.HasRoom n :=
  fun _ bounded => nomatch free.symm.trans bounded

/-- Where there is no memory for an entry, it is refused. -/
theorem insert_refused (full : ¬ h.HasRoom 1) (e : Entry) :
    ∃ capacity, h.insert e false = .error (.outOfMemory capacity) := by
  simp only [HasRoom, not_forall, Nat.not_le, Nat.lt_succ_iff] at full
  obtain ⟨capacity, bounded, above⟩ := full
  exact ⟨capacity, by simp [insert, bounded, Option.filter, above]⟩

/-- Where there is memory for more entries, one is made and leaves memory for the others. -/
theorem HasRoom.insert {n : Nat} (room : h.HasRoom (n + 1)) (e : Entry) (reserved : Bool) :
    ∃ r h', h.insert e reserved = .ok (r, h') ∧ h'.HasRoom n := by
  have granted : (h.capacity.filter fun capacity => !reserved && capacity ≤ h.live) = none := by
    rw [Option.filter_eq_none_iff]
    intro capacity bounded
    have enough := room capacity bounded
    have below : ¬ capacity ≤ h.live := by omega
    simp [below]
  obtain ⟨r, h', made⟩ : ∃ r h', h.insert e reserved = .ok (r, h') := by
    unfold Heap.insert
    rw [granted]
    dsimp only
    split
    · exact ⟨_, _, rfl⟩
    · exact ⟨_, _, rfl⟩
  refine ⟨r, h', made, fun capacity bounded => ?_⟩
  have enough := room capacity ((insert_limits made).1 ▸ bounded)
  rw [insert_live made]
  omega

theorem Arena.grown (arena : h.Arena) (hi : h.insert e reserved = .ok (r, h')) :
    Grown h e r h' := by
  obtain ⟨i, free, listed, rfl, rfl⟩ | ⟨-, rfl, rfl⟩ := insert_cases hi
  · have vacant : h.cells[i]? = some none := (arena.empty i).mp (by simp [listed])
    obtain ⟨bound, held⟩ := Array.getElem?_eq_some_iff.mp vacant
    refine ⟨by simp [cell?, vacant], fun r' => ?_, rfl, fun p => ?_⟩
    · simp only [cell?, Array.getElem?_setIfInBounds, bound, if_true]
      by_cases same : i = r'.index
      · simp [same]
      · have other : r' ≠ ⟨i⟩ := fun eq => same (by rw [eq])
        simp [same, other]
    · simp only [Heap.count, Array.setIfInBounds, bound, dif_pos, Array.countP_set, held]
      simp
  · refine ⟨by simp [cell?], fun r' => ?_, rfl, fun p => by simp [Heap.count, Array.countP_push]⟩
    simp only [cell?, Array.getElem?_push]
    by_cases same : r'.index = h.cells.size
    · have eq : r' = ⟨h.cells.size⟩ := congrArg Handle.mk same
      simp [eq]
    · have other : r' ≠ ⟨h.cells.size⟩ := fun eq => same (by rw [eq])
      simp [same, other]

theorem Arena.insert (arena : h.Arena) (hi : h.insert e reserved = .ok (r, h')) : h'.Arena := by
  have grown := arena.grown hi
  have serial {r' : Handle} {c : Cell} (found : h'.cell? r' = some c) :
      r' = r ∧ c.serial = h.made ∨ h.cell? r' = some c ∧ c.serial < h.made := by
    rw [grown.cells] at found
    split at found
    next same =>
      cases found
      exact .inl ⟨same, rfl⟩
    next => exact .inr ⟨found, arena.serial found⟩
  refine ⟨?_, ?_, fun i => ?_, fun found => ?_, fun first second same => ?_⟩
  · have live : h'.live = h.live + 1 := by
      obtain ⟨i, free, -, -, rfl⟩ | ⟨-, -, rfl⟩ := insert_cases hi <;> rfl
    rw [live, arena.live, occupied_eq_count, occupied_eq_count, grown.count]
    simp
  · obtain ⟨i, free, listed, -, rfl⟩ | ⟨listed, -, rfl⟩ := insert_cases hi
    · exact (List.nodup_cons.mp (listed ▸ arena.nodup)).2
    · simp [listed]
  · obtain ⟨k, free, listed, -, rfl⟩ | ⟨listed, -, rfl⟩ := insert_cases hi
    · have fresh : k ∉ free := (List.nodup_cons.mp (listed ▸ arena.nodup)).1
      have empty := arena.empty i
      rw [listed, List.mem_cons] at empty
      have bound : k < h.cells.size :=
        (Array.getElem?_eq_some_iff.mp ((arena.empty k).mp (by simp [listed]))).1
      rw [Array.getElem?_setIfInBounds]
      by_cases same : k = i
      · subst same
        simp [fresh, bound]
      · simp [same, ← empty, Ne.symm same]
    · have empty := arena.empty i
      simp only [listed, List.not_mem_nil, false_iff] at empty ⊢
      rw [Array.getElem?_push]
      split <;> simp_all
  · rw [grown.made]
    obtain ⟨-, last⟩ | ⟨-, old⟩ := serial found <;> omega
  · obtain ⟨rfl, last⟩ | ⟨old, before⟩ := serial first <;>
      obtain ⟨rfl, last'⟩ | ⟨old', before'⟩ := serial second
    · rfl
    · omega
    · omega
    · exact arena.distinct old old' same

theorem checkLength_ok {length : Nat} (checked : h.checkLength length = .ok ()) :
    h.isTooLong length = false := by
  unfold checkLength at checked
  split at checked
  · cases checked
  next short =>
    rw [Bool.not_eq_true, Bool.or_eq_false_iff] at short
    exact short.1

theorem allocateArray_short {kind : ElementKind} {descriptor : String} {length : Nat}
    (ha : h.allocateArray kind descriptor length = .ok (r, h')) : h.isTooLong length = false := by
  unfold allocateArray at ha
  cases checked : h.checkLength length with
  | error e => simp [checked, bind, Except.bind] at ha
  | ok _ => exact checkLength_ok checked

theorem allocateArray_ok {kind : ElementKind} {descriptor : String} {length : Nat}
    (ha : h.allocateArray kind descriptor length = .ok (r, h')) :
    h.insert (.array ⟨descriptor, kind, Array.replicate length kind.defaultValue⟩) false =
      .ok (r, h') := by
  unfold allocateArray at ha
  cases checked : h.checkLength length with
  | error e => simp [checked, bind, Except.bind] at ha
  | ok _ => simpa [checked, bind, Except.bind, allocateArrayOf] using ha

theorem cloneArray_ok (hc : h.cloneArray r = .ok (r', h')) :
    ∃ a, h.array r = .ok a ∧ h.insert (.array a) false = .ok (r', h') := by
  unfold cloneArray at hc
  cases found : h.array r with
  | error e => simp [found, bind, Except.bind] at hc
  | ok a => exact ⟨a, rfl, by simpa [found, bind, Except.bind, allocateArrayOf] using hc⟩

/-! ## Changing an entry -/

theorem cell?_replace (r' : Handle) :
    (h.replace r e).cell? r' =
      if r' = r then (h.cell? r).map fun c => { c with entry := e } else h.cell? r' := by
  simp only [cell?, replace, Array.getElem?_modify]
  by_cases same : r.index = r'.index
  · have eq : r' = r := by cases r; cases r'; simp_all
    subst eq
    rcases h.cells[r'.index]? with - | - | c <;> simp
  · have other : r' ≠ r := fun eq => same (by rw [eq])
    simp [same, other]

/-- After an entry was replaced an entry is an old one or the new one. -/
theorem entry_replace_cases {e' : Entry} (found : (h.replace r e).entry r' = .ok e') :
    h.entry r' = .ok e' ∨ e' = e := by
  obtain ⟨serial, cell⟩ := entry_eq_ok.mp found
  rw [cell?_replace] at cell
  split at cell
  · obtain ⟨old, -, same⟩ := Option.map_eq_some_iff.mp cell
    cases same
    exact .inr rfl
  · exact .inl (entry_eq_ok.mpr ⟨serial, cell⟩)

theorem count_replace (p : Nat → Bool) : (h.replace r e).count p = h.count p := by
  by_cases bound : r.index < h.cells.size
  · have modified : h.cells.modify r.index (·.map ({ · with entry := e })) =
        h.cells.set r.index ((h.cells[r.index]).map ({ · with entry := e })) bound := by
      apply Array.ext
      · simp
      · intro i _ _
        by_cases same : r.index = i <;> simp [Array.getElem_modify, Array.getElem_set, same]
    simp only [count, replace, modified, Array.countP_set]
    cases held : h.cells[r.index] with
    | none => simp
    | some c =>
        have positive : p c.serial = true →
            0 < h.cells.countP fun cell => cell.any (p ·.serial) := fun holds =>
          Array.countP_pos_iff.mpr
            ⟨some c, held ▸ Array.getElem_mem bound, by simpa using holds⟩
        by_cases holds : p c.serial
        · have := positive holds
          simp only [Option.map_some, Option.any_some, holds, if_true]
          omega
        · simp [holds]
  · have unchanged : h.cells.modify r.index (·.map ({ · with entry := e })) = h.cells := by
      apply Array.ext
      · simp
      · intro i _ inside
        have other : r.index ≠ i := by omega
        simp [Array.getElem_modify, other]
    simp only [count, replace, unchanged]

/-- Replacing an entry touches no books: serial numbers and empty cells stay. -/
theorem Arena.replace (arena : h.Arena) : (h.replace r e).Arena := by
  have serial {r' : Handle} {c : Cell} (found : (h.replace r e).cell? r' = some c) :
      ∃ old, h.cell? r' = some old ∧ old.serial = c.serial := by
    rw [cell?_replace] at found
    split at found
    next same =>
      obtain ⟨old, held, rfl⟩ := Option.map_eq_some_iff.mp found
      exact ⟨old, same ▸ held, rfl⟩
    next => exact ⟨c, found, rfl⟩
  refine ⟨?_, arena.nodup, fun i => ?_, fun found => ?_, fun first second same => ?_⟩
  · rw [occupied_eq_count, count_replace, ← occupied_eq_count]
    exact arena.live
  · refine (arena.empty i).trans ?_
    simp only [Heap.replace, Array.getElem?_modify]
    split
    · rcases h.cells[i]? with - | - | c <;> simp
    · rfl
  · obtain ⟨old, held, eq⟩ := serial found
    exact eq ▸ arena.serial held
  · obtain ⟨old, held, eq⟩ := serial first
    obtain ⟨old', held', eq'⟩ := serial second
    exact arena.distinct held held' (by rw [eq, eq', same])

theorem getField_ok {f : FieldDecl} {v : Value} (read : h.getField r f = .ok v) :
    ∃ cls slots s, h.entry r = .ok (.object cls slots) ∧ slots.find? (·.holds f) = some s ∧
      s.value = v := by
  unfold getField at read
  cases found : h.object r with
  | error e => simp [found, bind, Except.bind] at read
  | ok o =>
      obtain ⟨cls, slots⟩ := o
      simp only [found, bind, Except.bind] at read
      split at read
      next s first =>
        cases read
        exact ⟨cls, slots, s, object_eq_ok.mp found, first, rfl⟩
      next => cases read

theorem setField_ok {f : FieldDecl} {v : Value} (hs : h.setField r f v = .ok h') :
    ∃ cls slots, h.entry r = .ok (.object cls slots) ∧ slots.any (·.holds f) = true ∧
      h' = h.replace r (.object cls (Slot.store f v slots)) := by
  unfold setField at hs
  cases found : h.object r with
  | error e => simp [found, bind, Except.bind] at hs
  | ok o =>
      obtain ⟨cls, slots⟩ := o
      simp only [found, bind, Except.bind] at hs
      split at hs
      next held =>
        cases hs
        exact ⟨cls, slots, object_eq_ok.mp found, held, rfl⟩
      next => cases hs

/-- A field that an object has can be stored into. -/
theorem setField_held {cls : LoadedClass} {slots : List Slot} {f : FieldDecl}
    (found : h.entry r = .ok (.object cls slots)) (held : slots.any (·.holds f) = true) (v : Value) :
    h.setField r f v = .ok (h.replace r (.object cls (Slot.store f v slots))) := by
  rw [setField, object_eq_ok.mpr found]
  dsimp only [bind, Except.bind]
  rw [if_pos held]
  rfl

/-- A place is within the bounds. -/
theorem place?_lt {length i : Nat} {index : Int32} (h : place? length index = some i) :
    i < length := by
  unfold place? at h
  split at h
  · cases h
    omega
  · cases h

theorem storeElement_ok {index : Int32} {v : Value} {stored : Bool}
    (hs : h.storeElement r index v = .ok (stored, h')) :
    ∃ a, h.array r = .ok a ∧ (stored = false ∧ h' = h ∨ ∃ i, stored = true ∧
      h' = h.replace r (.array { a with elements := a.elements.setIfInBounds i v })) := by
  unfold storeElement at hs
  cases found : h.array r with
  | error e => simp [found, bind, Except.bind] at hs
  | ok a =>
      simp only [found, bind, Except.bind] at hs
      split at hs
      · cases hs
        exact ⟨a, rfl, .inl ⟨rfl, rfl⟩⟩
      · cases hs
        exact ⟨a, rfl, .inr ⟨_, rfl, rfl⟩⟩

/-- An element within the bounds of an array can be stored. -/
theorem storeElement_inside {a : ArrayEntry} {index : Int32} {i : Nat} (found : h.array r = .ok a)
    (inside : place? a.elements.size index = some i) (v : Value) :
    h.storeElement r index v =
      .ok (true, h.replace r (.array { a with elements := a.elements.setIfInBounds i v })) := by
  rw [storeElement, found]
  simp only [bind, Except.bind, inside]
  rfl

/-! ## Freeing an entry -/

theorem release_ok (hr : h.release r = .ok h') : ∃ c, h.cell? r = some c ∧
    h' = { h with cells := h.cells.setIfInBounds r.index none, free := r.index :: h.free,
                  live := h.live - 1 } := by
  unfold release at hr
  cases found : h.cell r with
  | error f => simp [found, bind, Except.bind] at hr
  | ok c =>
      simp only [found, bind, Except.bind, pure, Except.pure, Except.ok.injEq] at hr
      exact ⟨c, cell_eq_ok.mp found, hr.symm⟩

theorem cell?_release (hr : h.release r = .ok h') (r' : Handle) :
    h'.cell? r' = if r' = r then none else h.cell? r' := by
  obtain ⟨c, -, rfl⟩ := release_ok hr
  simp only [cell?, Array.getElem?_setIfInBounds]
  by_cases same : r.index = r'.index
  · have eq : r' = r := by cases r; cases r'; simp_all
    subst eq
    simp only [if_true]
    split <;> rfl
  · have other : r' ≠ r := fun eq => same (by rw [eq])
    simp [same, other]

theorem count_release (hr : h.release r = .ok h') (p : Nat → Bool) :
    ∃ c, h.cell? r = some c ∧ h.count p = h'.count p + if p c.serial then 1 else 0 := by
  obtain ⟨c, found, rfl⟩ := release_ok hr
  refine ⟨c, found, ?_⟩
  obtain ⟨bound, held⟩ := Array.getElem?_eq_some_iff.mp (cell?_eq_some.mp found)
  simp only [count, Array.setIfInBounds, bound, dif_pos, Array.countP_set, held, Option.any_some,
    Option.any_none]
  by_cases holds : p c.serial
  · have positive : 0 < h.cells.countP fun cell => cell.any (p ·.serial) :=
      Array.countP_pos_iff.mpr ⟨some c, held ▸ Array.getElem_mem bound, by simpa using holds⟩
    simp only [holds, if_true, Bool.false_eq_true, if_false]
    omega
  · simp [holds]

theorem Arena.release (arena : h.Arena) (hr : h.release r = .ok h') : h'.Arena := by
  have remains {r' : Handle} {c : Cell} (found : h'.cell? r' = some c) : h.cell? r' = some c := by
    rw [cell?_release hr] at found
    split at found
    · cases found
    · exact found
  refine ⟨?_, ?_, fun i => ?_, fun found => ?_, fun first second same => ?_⟩
  · obtain ⟨c, -, counted⟩ := count_release hr fun _ => true
    obtain ⟨-, -, rfl⟩ := release_ok hr
    have live := arena.live
    simp only [occupied_eq_count, if_true] at counted live ⊢
    omega
  · obtain ⟨c, found, rfl⟩ := release_ok hr
    refine List.nodup_cons.mpr ⟨fun listed => ?_, arena.nodup⟩
    have vacant := (arena.empty _).mp listed
    rw [cell?_eq_some.mp found] at vacant
    cases vacant
  · obtain ⟨c, found, rfl⟩ := release_ok hr
    have bound := (Array.getElem?_eq_some_iff.mp (cell?_eq_some.mp found)).1
    rw [List.mem_cons, arena.empty, Array.getElem?_setIfInBounds]
    by_cases same : r.index = i
    · subst same
      simp [bound]
    · simp [same, Ne.symm same]
  · obtain ⟨-, -, rfl⟩ := release_ok hr
    exact arena.serial (remains found)
  · exact arena.distinct (remains first) (remains second) same

/-- A heap without entries keeps its books right. -/
theorem Arena.blank (capacity maxArrayLength : Option Nat) :
    Arena { capacity, maxArrayLength } where
  live := rfl
  nodup := .nil
  empty i := by simp
  serial found := by simp [cell?] at found
  distinct found := by simp [cell?] at found

/-! ## Heaps with new entries -/

/-- One heap is another one with new entries: all that was there is what it was, and all that is
there was there or is new. -/
structure Extended (h : Heap) (new : List (Handle × Entry)) (h' : Heap) : Prop where
  /-- What was there is what it was. -/
  kept : ∀ {r c}, h.cell? r = some c → h'.cell? r = some c
  /-- Where the new entries are, there was nothing. -/
  vacant : ∀ p ∈ new, h.cell? p.1 = none
  /-- The new entries have handles of their own. -/
  nodup : (new.map Prod.fst).Nodup
  /-- The new entries are there. -/
  added : ∀ p ∈ new, h'.entry p.1 = .ok p.2
  /-- There is nothing else. -/
  only : ∀ {r c}, h'.cell? r = some c → h.cell? r = some c ∨ r ∈ new.map Prod.fst
  /-- The books are in order. -/
  arena : h'.Arena

variable {h'' : Heap} {new later : List (Handle × Entry)}

theorem Extended.refl (arena : h.Arena) : h.Extended [] h :=
  ⟨id, nofun, .nil, nofun, .inl, arena⟩

/-- An allocation adds an entry. -/
theorem Extended.insert {reserved : Bool} (arena : h.Arena)
    (made : h.insert e reserved = .ok (r, h')) : h.Extended [(r, e)] h' where
  kept := (arena.grown made).kept
  vacant p listed := by
    cases List.mem_singleton.mp listed
    exact (arena.grown made).vacant
  nodup := List.nodup_singleton r
  added p listed := by
    cases List.mem_singleton.mp listed
    exact entry_eq_ok.mpr ⟨_, by rw [(arena.grown made).cells, if_pos rfl]⟩
  only {r' c} found := by
    by_cases same : r' = r
    · exact .inr (by simp [same])
    · rw [(arena.grown made).cells, if_neg same] at found
      exact .inl found
  arena := arena.insert made

theorem Extended.trans (first : h.Extended new h') (second : h'.Extended later h'') :
    h.Extended (new ++ later) h'' where
  kept := second.kept ∘ first.kept
  vacant p listed := by
    rcases List.mem_append.mp listed with listed | listed
    · exact first.vacant p listed
    · refine Option.eq_none_iff_forall_ne_some.mpr fun c found => ?_
      exact nomatch (second.vacant p listed).symm.trans (first.kept found)
  nodup := by
    rw [List.map_append]
    refine first.nodup.append second.nodup fun r listed listed' => ?_
    obtain ⟨p, inside, rfl⟩ := List.mem_map.mp listed
    obtain ⟨q, outside, same⟩ := List.mem_map.mp listed'
    obtain ⟨serial, there⟩ := entry_eq_ok.mp (first.added p inside)
    exact nomatch (same ▸ second.vacant q outside).symm.trans there
  added p listed := by
    rcases List.mem_append.mp listed with listed | listed
    · obtain ⟨serial, there⟩ := entry_eq_ok.mp (first.added p listed)
      exact entry_eq_ok.mpr ⟨serial, second.kept there⟩
    · exact second.added p listed
  only {r c} found := by
    rw [List.map_append, List.mem_append]
    rcases second.only found with found | listed
    · exact (first.only found).imp_right .inl
    · exact .inr (.inr listed)
  arena := second.arena

/-- The entry that was made last may be changed. -/
theorem Extended.replace {e' : Entry} (extended : h.Extended (new ++ [(r, e)]) h') :
    h.Extended (new ++ [(r, e')]) (h'.replace r e') := by
  have vacant := extended.vacant (r, e) (by simp)
  have nodup := extended.nodup
  rw [List.map_append, List.nodup_append] at nodup
  obtain ⟨-, -, apart⟩ := nodup
  refine ⟨fun {r' c} found => ?_, fun p listed => ?_, ?_, fun p listed => ?_, fun {r' c} found => ?_,
    extended.arena.replace⟩
  · have other : r' ≠ r := by
      rintro rfl
      exact nomatch vacant.symm.trans found
    rw [cell?_replace, if_neg other]
    exact extended.kept found
  · rcases List.mem_append.mp listed with old | last
    · exact extended.vacant p (List.mem_append_left _ old)
    · cases List.mem_singleton.mp last
      exact vacant
  · simpa using extended.nodup
  · rcases List.mem_append.mp listed with old | last
    · have other : p.1 ≠ r := apart _ (List.mem_map_of_mem old) r (by simp)
      obtain ⟨serial, there⟩ := entry_eq_ok.mp (extended.added p (List.mem_append_left _ old))
      exact entry_eq_ok.mpr ⟨serial, by rw [cell?_replace, if_neg other, there]⟩
    · cases List.mem_singleton.mp last
      obtain ⟨serial, there⟩ := entry_eq_ok.mp (extended.added (r, e) (by simp))
      exact entry_eq_ok.mpr ⟨serial, by rw [cell?_replace, if_pos rfl, there]; rfl⟩
  · rw [cell?_replace] at found
    split at found
    next same => exact .inr (by simp [same])
    next => exact (extended.only found).imp_right fun listed => by simpa using listed

end JavaMachine.Heap
