import JavaMachine.Proofs.FieldTypes
import JavaMachine.Proofs.Raising

/-!
# Copies between arrays

A copy between arrays reads all elements before it writes the first one, so the two ranges may
overlap.  It ends in one of five ways.

* It is done: both arrays are of one kind, both ranges lie in them, and the elements of the one are
  those that the other had.
* It stops at the first reference that the target may not hold: those in front of it are copied, and
  an exception is pending.
* It is refused with another exception, and all arrays are what they were.
* It fails, and all arrays are what they were.
* It falters: it has stopped at a reference, and then the exception could not be raised.

The last of them does not happen as long as the memory is enough for every exception.  The ends of
the ranges are compared as integers and do not wrap around.
-/

namespace JavaMachine

/-! ## What is asked for -/

/-- The arguments of a copy between arrays. -/
structure ArrayCopy where
  /-- The array to read from. -/
  source : Value
  /-- The place of the first element to read. -/
  sourcePlace : Int32
  /-- The array to write to. -/
  target : Value
  /-- The place of the first element to write. -/
  targetPlace : Int32
  /-- The number of elements. -/
  length : Int32

namespace ArrayCopy

/-- The number of the first element to read. -/
def start (q : ArrayCopy) : Nat := q.sourcePlace.toInt.toNat

/-- The number of the first element to write. -/
def place (q : ArrayCopy) : Nat := q.targetPlace.toInt.toNat

/-- How many elements are asked for. -/
def count (q : ArrayCopy) : Nat := q.length.toInt.toNat

variable {q : ArrayCopy} {w : World} {h : Heap} {src dest : Handle} {a b : ArrayEntry}

/-- The arguments are the topmost operands of a thread. -/
structure Given (q : ArrayCopy) (t : Thread) : Prop where
  /-- The number of elements is on top. -/
  length : t.peek 1 = .ok (.int q.length)
  /-- Below it is the place to write to. -/
  targetPlace : t.peek 2 = .ok (.int q.targetPlace)
  /-- Below that is the array to write to. -/
  target : t.peek 3 = .ok q.target
  /-- Below that is the place to read from. -/
  sourcePlace : t.peek 4 = .ok (.int q.sourcePlace)
  /-- Below that is the array to read from. -/
  source : t.peek 5 = .ok q.source

/-- The copy is from one array to another, or within one. -/
structure Between (q : ArrayCopy) (h : Heap) (src dest : Handle) (a b : ArrayEntry) : Prop where
  /-- The source has a handle. -/
  source : q.source.asHandle = .ok (some src)
  /-- The target has a handle. -/
  target : q.target.asHandle = .ok (some dest)
  /-- The handle of the source names an array. -/
  read : h.array src = .ok a
  /-- The handle of the target names an array. -/
  written : h.array dest = .ok b

/-- The ranges lie in the arrays. -/
structure Within (q : ArrayCopy) (a b : ArrayEntry) : Prop where
  /-- The number of elements is not negative. -/
  length : 0 ≤ q.length.toInt
  /-- The range to read starts in the source. -/
  sourceStart : 0 ≤ q.sourcePlace.toInt
  /-- It ends there. -/
  sourceEnd : q.sourcePlace.toInt + q.length.toInt ≤ a.elements.size
  /-- The range to write starts in the target. -/
  targetStart : 0 ≤ q.targetPlace.toInt
  /-- It ends there. -/
  targetEnd : q.targetPlace.toInt + q.length.toInt ≤ b.elements.size

/-- What is asked for can be done: the arrays are of one kind and the ranges lie in them. -/
structure Valid (q : ArrayCopy) (h : Heap) (src dest : Handle) (a b : ArrayEntry) : Prop
    extends q.Between h src dest a b, q.Within a b where
  /-- The arrays are of one kind. -/
  kind : a.kind = b.kind

theorem Within.inSource (within : q.Within a b) : q.start + q.count ≤ a.elements.size := by
  have length := within.length
  have first := within.sourceStart
  have last := within.sourceEnd
  unfold start count
  omega

theorem Within.inTarget (within : q.Within a b) : q.place + q.count ≤ b.elements.size := by
  have length := within.length
  have first := within.targetStart
  have last := within.targetEnd
  unfold place count
  omega

/-- What is asked for is refused with an exception of a class. -/
inductive Refused (q : ArrayCopy) (h : Heap) : String → Prop
  /-- One of the arrays is null. -/
  | null (absent : q.source.asHandle = .ok none ∨ q.target.asHandle = .ok none) :
      Refused q h Throwable.nullPointerException
  /-- One of them is not an array. -/
  | object {src dest : Handle} (source : q.source.asHandle = .ok (some src))
      (target : q.target.asHandle = .ok (some dest))
      (other : ¬ ∃ a b, h.array src = .ok a ∧ h.array dest = .ok b) :
      Refused q h Throwable.arrayStoreException
  /-- They are of different kinds. -/
  | kinds {src dest : Handle} {a b : ArrayEntry} (between : q.Between h src dest a b)
      (different : a.kind ≠ b.kind) : Refused q h Throwable.arrayStoreException
  /-- One of the ranges does not lie in its array. -/
  | range {src dest : Handle} {a b : ArrayEntry} (between : q.Between h src dest a b)
      (same : a.kind = b.kind) (outside : ¬ q.Within a b) :
      Refused q h Throwable.arrayIndexOutOfBoundsException

end ArrayCopy

/-- A reference may not stand in an array of a descriptor: it is not null, and its type does not
fit. -/
def World.Misfit (w : World) (descriptor : String) (v : Value) : Prop :=
  v.isNull = false ∧ ∃ name, w.heap.typeName v = .ok name ∧
    w.library.isAssignable name (Exec.componentType descriptor) = false

/-- So many elements of an array of references, from a place on, may stand in another array, and
the next one may not.  Elements are only looked at when not all that the one array may hold the other
may hold too. -/
structure World.StopsAt (w : World) (a b : ArrayEntry) (start k : Nat) : Prop where
  /-- They are arrays of references. -/
  references : a.kind = .reference ∧ b.kind = .reference
  /-- The one may hold what the other may not. -/
  unassignable : w.library.isAssignable a.descriptor b.descriptor = false
  /-- The next element may not stand there. -/
  misfit : ∃ v, a.elements[start + k]? = some v ∧ w.Misfit b.descriptor v
  /-- The elements in front of it may. -/
  fits : ∀ j < k, ∀ v, a.elements[start + j]? = some v → w.Fits b.descriptor v

/-! ## What is left -/

namespace Heap

/-- Between two heaps so many elements of the target, from a place on, became those that the source
had from a place on.  Every other element of every array is what it was. -/
structure Copied (h h' : Heap) (dest : Handle) (a b : ArrayEntry) (start place count : Nat) :
    Prop where
  /-- The target has them. -/
  target : ∃ elements, h'.array dest = .ok { b with elements } ∧ ∀ i : Nat, elements[i]? =
    if place ≤ i ∧ i < place + count then a.elements[start + (i - place)]? else b.elements[i]?
  /-- Every other array is what it was. -/
  others : ∀ {r c}, r ≠ dest → h.array r = .ok c → h'.array r = .ok c

/-- Every array of a heap is what it was. -/
def Untouched (h h' : Heap) : Prop := ∀ {r c}, h.array r = .ok c → h'.array r = .ok c

end Heap

/-- How a copy between arrays ends. -/
inductive ArrayCopy.Outcome (q : ArrayCopy) (w : World) : EStateM.Result Stop Machine Unit → Prop
  /-- All elements are copied.  They may all stand in the target. -/
  | done {m' : Machine} {src dest : Handle} {a b : ArrayEntry}
      (valid : q.Valid w.heap src dest a b)
      (fits : a.kind = .reference → w.library.isAssignable a.descriptor b.descriptor = true ∨
        ∀ j < q.count, ∀ v, a.elements[q.start + j]? = some v →
          w.Fits b.descriptor v)
      (quiet : m'.thread.pending = none)
      (copied : w.heap.Copied m'.world.heap dest a b q.start q.place
        q.count) :
      Outcome q w (.ok () m')
  /-- The elements in front of the first one that may not stand in the target are copied. -/
  | stopped {m' : Machine} {src dest exception : Handle} {a b : ArrayEntry} {k : Nat}
      (valid : q.Valid w.heap src dest a b) (within : k < q.count)
      (stops : w.StopsAt a b q.start k)
      (pending : m'.thread.pending = some exception)
      (named : m'.world.heap.typeName (.object exception) = .ok Throwable.arrayStoreException)
      (copied : w.heap.Copied m'.world.heap dest a b q.start q.place k) :
      Outcome q w (.ok () m')
  /-- What was asked for is refused. -/
  | refused {m' : Machine} {exception : Handle} {className : String}
      (cause : q.Refused w.heap className) (pending : m'.thread.pending = some exception)
      (named : m'.world.heap.typeName (.object exception) = .ok className)
      (untouched : w.heap.Untouched m'.world.heap) :
      Outcome q w (.ok () m')
  /-- The host side failed. -/
  | failed {m' : Machine} {e : Fault} (untouched : w.heap.Untouched m'.world.heap) :
      Outcome q w (.error (.fault e) m')
  /-- The host side failed while the exception for the first element that may not stand in the
  target was raised, and the memory was not enough for every exception. -/
  | faltered {m' : Machine} {e : Fault} {src dest : Handle} {a b : ArrayEntry} {k : Nat}
      (valid : q.Valid w.heap src dest a b) (within : k < q.count)
      (stops : w.StopsAt a b q.start k) (scarce : ¬ w.Ample)
      (copied : w.heap.Copied m'.world.heap dest a b q.start q.place k) :
      Outcome q w (.error (.fault e) m')

/-! ## Elements that are written -/

namespace Exec

variable {s : Settings} {m m' : Machine}

/-- What is written from a place on stands there, as far as the array reaches. -/
theorem overwrite_getElem? : ∀ (vs : List Value) (target : Array Value) (place i : Nat),
    (overwrite target place vs)[i]? =
      if place ≤ i ∧ i < place + vs.length ∧ i < target.size then vs[i - place]? else target[i]?
  | [], target, place, i => by
      have never : ¬ (place ≤ i ∧ i < place + 0 ∧ i < target.size) := by omega
      rw [List.length_nil, if_neg never, overwrite]
  | v :: vs, target, place, i => by
      rw [overwrite, overwrite_getElem? vs, Array.size_setIfInBounds, List.length_cons,
        Array.getElem?_setIfInBounds]
      by_cases here : place = i
      · subst here
        have before : ¬ (place + 1 ≤ place ∧ place < place + 1 + vs.length ∧
          place < target.size) := by omega
        rw [if_neg before, if_pos rfl]
        by_cases bound : place < target.size
        · rw [if_pos bound, if_pos (by omega), Nat.sub_self, List.getElem?_cons_zero]
        · rw [if_neg bound, if_neg (by omega), Array.getElem?_eq_none (by omega)]
      · rw [if_neg here]
        by_cases later : place + 1 ≤ i ∧ i < place + 1 + vs.length ∧ i < target.size
        · obtain ⟨k, rfl⟩ : ∃ k, i = place + 1 + k := Nat.exists_eq_add_of_le later.1
          rw [if_pos later, if_pos (by omega), Nat.add_sub_cancel_left,
            show place + 1 + k - place = k + 1 by omega, List.getElem?_cons_succ]
        · rw [if_neg later, if_neg (by omega)]

/-- A reference that is refused is a misfit. -/
theorem misfit_refused {descriptor source : String} {v : Value}
    (h : misfit descriptor v s m = .ok (some source) m') : m.world.Misfit descriptor v := by
  unfold misfit at h
  split at h
  · cases h
  next some =>
    obtain ⟨name, mid, named, h⟩ := bind_eq_ok h
    rw [runtimeTypeName_run] at named
    cases type : m.world.heap.typeName v with
    | error e => rw [type] at named; cases named
    | ok name' =>
        rw [type] at named
        cases named
        rw [bind_of_ok library_run] at h
        split at h
        · cases h
        next unfit => exact ⟨by simpa using some, _, type, by simpa using unfit⟩

/-- All elements fit, or the first one that does not is a misfit. -/
theorem fitting_stops {descriptor : String} {s : Settings} {m m' : Machine} {count : Nat}
    {refused : Option String} : ∀ {vs : List Value} {n : Nat},
      fitting descriptor vs n s m = .ok (count, refused) m' →
      (refused = none ∧ count = n + vs.length) ∨
        ∃ k v, count = n + k ∧ refused.isSome = true ∧ vs[k]? = some v ∧
          m.world.Misfit descriptor v
  | [], n, h => by
      cases h
      exact .inl ⟨rfl, rfl⟩
  | v :: vs, n, h => by
      obtain ⟨first, mid, checked, h⟩ := bind_eq_ok h
      obtain ⟨rfl, -⟩ := misfit_ok checked
      cases first with
      | some source =>
          cases h
          exact .inr ⟨0, v, rfl, rfl, rfl, misfit_refused checked⟩
      | none =>
          obtain ⟨none, count⟩ | ⟨k, u, count, some, found, unfit⟩ := fitting_stops h
          · exact .inl ⟨none, by rw [count, List.length_cons]; omega⟩
          · exact .inr ⟨k + 1, u, by omega, some, found, unfit⟩

theorem fitting_leavesArrays (descriptor : String) : ∀ (vs : List Value) (n : Nat),
    LeavesArrays (fitting descriptor vs n)
  | [], _ => .pure _
  | v :: vs, n => by
      refine (misfit_leavesArrays descriptor v).bind fun refused => ?_
      split
      · exact .pure _
      · exact fitting_leavesArrays descriptor vs (n + 1)

/-- What is read is as long as was asked for. -/
theorem extract_getElem? {vs : Array Value} {start length j : Nat} :
    (vs.extract start (start + length)).toList[j]? =
      if j < length then vs[start + j]? else none := by
  rw [Array.getElem?_toList, Array.getElem?_extract]
  split
  next inside =>
    rw [if_pos (by omega)]
  next outside =>
    by_cases short : j < length
    · rw [if_pos short, Array.getElem?_eq_none (by omega)]
    · rw [if_neg short]

end Exec

namespace Heap

variable {h h' : Heap} {dest : Handle} {a b : ArrayEntry} {start place count length : Nat}

theorem array_replaced {c : ArrayEntry} (written : h.array dest = .ok b) :
    (h.replace dest (.array c)).array dest = .ok c := by
  obtain ⟨serial, cell⟩ := entry_eq_ok.mp (array_eq_ok.mp written)
  exact array_eq_ok.mpr (entry_eq_ok.mpr ⟨serial, by rw [cell?_replace, if_pos rfl, cell]; rfl⟩)

theorem isArray_cases (h : Heap) (r : Handle) :
    (∃ a, h.isArray r = .ok true ∧ h.array r = .ok a) ∨
      (h.isArray r = .ok false ∧ ∀ a, h.array r ≠ .ok a) ∨ ∃ e, h.isArray r = .error e := by
  unfold isArray array
  cases h.entry r with
  | error e => exact .inr (.inr ⟨e, rfl⟩)
  | ok e =>
      cases e with
      | object => exact .inr (.inl ⟨rfl, nofun⟩)
      | array a => exact .inl ⟨a, rfl, rfl⟩

/-- What is written is what was read. -/
theorem Copied.of_overwrite (written : h.array dest = .ok b) (few : count ≤ length)
    (inSource : start + length ≤ a.elements.size) (inTarget : place + length ≤ b.elements.size) :
    h.Copied (h.replace dest (.array { b with
      elements := Exec.overwrite b.elements place
        ((a.elements.extract start (start + length)).toList.take count) }))
      dest a b start place count where
  target := by
    have size : (a.elements.extract start (start + length)).toList.length = length := by
      rw [Array.length_toList, Array.size_extract]
      omega
    refine ⟨_, array_replaced written, fun i => ?_⟩
    rw [Exec.overwrite_getElem?, List.length_take, size, Nat.min_eq_left few]
    by_cases inside : place ≤ i ∧ i < place + count
    · rw [if_pos inside, if_pos (by omega), List.getElem?_take_of_lt (by omega),
        Exec.extract_getElem?, if_pos (by omega)]
    · rw [if_neg inside, if_neg (by omega)]
  others := array_beside

/-- What is done behind a copy without touching an array leaves the copy as it is. -/
theorem Copied.untouched {h'' : Heap} (copied : h.Copied h' dest a b start place count)
    (untouched : h'.Untouched h'') : h.Copied h'' dest a b start place count where
  target := by
    obtain ⟨elements, found, moved⟩ := copied.target
    exact ⟨elements, untouched found, moved⟩
  others other found := untouched (copied.others other found)

end Heap

/-! ## The ends of a copy -/

namespace Exec

variable {s : Settings} {m m' : Machine} {q : ArrayCopy} {className : String} {src dest : Handle}
  {a b : ArrayEntry}

/-- A refusal is an exception of its class, or the host side fails. -/
theorem raise_outcome (free : m.world.heap.capacity = none) (arena : m.world.heap.Arena)
    [Throwable.Raised className] (other : className ≠ Throwable.outOfMemoryError)
    (cause : q.Refused m.world.heap className) (message : Option String) :
    q.Outcome m.world (raise className message s m) := by
  have sameArrays := (raise_leavesArrays className message).keeps s m
  cases run : raise className message s m with
  | ok _ m' =>
      rw [after_of_ok run] at sameArrays
      obtain ⟨exception, pending, named⟩ := raise_typeName free arena other run
      exact .refused cause pending named (sameArrays.arrays arena)
  | error stop m' =>
      rw [after_of_error run] at sameArrays
      obtain ⟨e, rfl⟩ := (raise_leavesArrays className message).stops run
      exact .failed (sameArrays.arrays arena)

/-- The elements that a copy is about. -/
def movedBy (q : ArrayCopy) (a : ArrayEntry) : List Value :=
  (a.elements.extract q.start (q.start + q.count)).toList

theorem movedBy_getElem? {j : Nat} :
    (movedBy q a)[j]? = if j < q.count then a.elements[q.start + j]? else none :=
  extract_getElem?

theorem movedBy_length (within : q.Within a b) : (movedBy q a).length = q.count := by
  have inSource := within.inSource
  rw [movedBy, Array.length_toList, Array.size_extract]
  omega

/-- What is found about the elements in order is found about the array. -/
theorem fitting_ends {w : World} {count : Nat} {refused : Option String}
    (references : a.kind = .reference ∧ b.kind = .reference)
    (unassignable : w.library.isAssignable a.descriptor b.descriptor = false)
    (within : q.Within a b) (fits : ∀ v ∈ (movedBy q a).take count, w.Fits b.descriptor v)
    (found : (refused = none ∧ count = 0 + (movedBy q a).length) ∨
      ∃ k v, count = 0 + k ∧ refused.isSome = true ∧ (movedBy q a)[k]? = some v ∧
        w.Misfit b.descriptor v) :
    (refused = none ∧ count = q.count ∧
        (a.kind = .reference → w.library.isAssignable a.descriptor b.descriptor = true ∨
          ∀ j < q.count, ∀ v, a.elements[q.start + j]? = some v → w.Fits b.descriptor v)) ∨
      refused.isSome = true ∧ count < q.count ∧ w.StopsAt a b q.start count := by
  have before {j : Nat} {v : Value} (short : j < count) (few : count ≤ q.count)
      (read : a.elements[q.start + j]? = some v) : w.Fits b.descriptor v := by
    refine fits v (List.mem_of_getElem? (i := j) ?_)
    rw [List.getElem?_take_of_lt short, movedBy_getElem?, if_pos (by omega), read]
  obtain ⟨none, all⟩ | ⟨k, v, reached, some, read, misfit⟩ := found
  · rw [movedBy_length within, Nat.zero_add] at all
    exact .inl ⟨none, all, fun _ => .inr fun j short v => before (all ▸ short) all.le⟩
  · rw [Nat.zero_add] at reached
    subst reached
    rw [movedBy_getElem?] at read
    split at read
    next short =>
      exact .inr ⟨some, short, references, unassignable, ⟨v, read, misfit⟩,
        fun j below u => before below short.le⟩
    next => cases read

/-- When a copy has stopped, the exception is pending, or the memory was not enough for it. -/
theorem raiseMisfit_outcome {k : Nat} {heap : Heap} (free : heap.capacity = none)
    (arena : heap.Arena) (valid : q.Valid m.world.heap src dest a b) (within : k < q.count)
    (stops : m.world.StopsAt a b q.start k)
    (copied : m.world.heap.Copied heap dest a b q.start q.place k) (source descriptor : String) :
    q.Outcome m.world
      (raiseMisfit source descriptor s { m with world := { m.world with heap } }) := by
  have sameArrays :=
    (raiseMisfit_leavesArrays source descriptor).keeps s { m with world := { m.world with heap } }
  cases run : raiseMisfit source descriptor s { m with world := { m.world with heap } } with
  | ok _ m' =>
      rw [after_of_ok run] at sameArrays
      obtain ⟨exception, pending, named⟩ := raise_typeName free arena (by decide) run
      exact .stopped valid within stops pending named (copied.untouched (sameArrays.arrays arena))
  | error stop m' =>
      rw [after_of_error run] at sameArrays
      obtain ⟨e, rfl⟩ := (raiseMisfit_leavesArrays source descriptor).stops run
      refine .faltered valid within stops (fun ample => ?_)
        (copied.untouched (sameArrays.arrays arena))
      have enough : World.Stocked { m.world with heap } := ⟨ample.boot, ample.memo, arena⟩
      obtain ⟨last, raised⟩ : ∃ last, raiseMisfit source descriptor s
          { m with world := { m.world with heap } } = .ok () last :=
        raise_made enough (by decide) _
      exact nomatch raised.symm.trans run

/-- The elements that fit are written.  If they are not all, the copy has stopped at the next one. -/
theorem placeFitting_outcome {count : Nat} {refused : Option String}
    (free : m.world.heap.capacity = none) (arena : m.world.heap.Arena)
    (quiet : m.thread.pending = none) (valid : q.Valid m.world.heap src dest a b)
    (ends : (refused = none ∧ count = q.count ∧
        (a.kind = .reference → m.world.library.isAssignable a.descriptor b.descriptor = true ∨
          ∀ j < q.count, ∀ v, a.elements[q.start + j]? = some v → m.world.Fits b.descriptor v)) ∨
      refused.isSome = true ∧ count < q.count ∧ m.world.StopsAt a b q.start count) :
    q.Outcome m.world
      (placeFitting dest b q.place (movedBy q a) (count, refused) s m) := by
  have copied : m.world.heap.Copied _ dest a b q.start q.place count :=
    .of_overwrite valid.written (show count ≤ q.count by omega) valid.inSource valid.inTarget
  obtain ⟨rfl, rfl, fits⟩ | ⟨some, within, stops⟩ := ends
  · exact .done valid fits quiet copied
  · obtain ⟨source, rfl⟩ := Option.isSome_iff_exists.mp some
    refine raiseMisfit_outcome ?_ ?_ valid within stops copied _ _
    · exact free
    · exact arena.replace

/-- The ranges are checked as integers. -/
theorem inRange_eq_true {size : Nat} {place length : Int32} : inRange size place length = true ↔
    0 ≤ place.toInt ∧ 0 ≤ length.toInt ∧ place.toInt + length.toInt ≤ size := by
  simp [inRange, and_assoc]

theorem within_iff : q.Within a b ↔ inRange a.elements.size q.sourcePlace q.length = true ∧
    inRange b.elements.size q.targetPlace q.length = true := by
  rw [inRange_eq_true, inRange_eq_true]
  constructor
  · exact fun within => ⟨⟨within.sourceStart, within.length, within.sourceEnd⟩,
      within.targetStart, within.length, within.targetEnd⟩
  · exact fun ⟨⟨sourceStart, length, sourceEnd⟩, targetStart, _, targetEnd⟩ =>
      ⟨length, sourceStart, sourceEnd, targetStart, targetEnd⟩

/-- A copy between two arrays. -/
theorem copyElements_outcome (free : m.world.heap.capacity = none) (arena : m.world.heap.Arena)
    (quiet : m.thread.pending = none) (between : q.Between m.world.heap src dest a b) :
    q.Outcome m.world
      (copyElements src dest q.sourcePlace q.targetPlace q.length s m) := by
  have read : ofExcept (m.world.heap.array src) s m = .ok a m := by rw [between.read]; rfl
  have written : ofExcept (m.world.heap.array dest) s m = .ok b m := by rw [between.written]; rfl
  rw [copyElements, bind_of_ok heap_run, bind_of_ok read, bind_of_ok heap_run, bind_of_ok written]
  split
  next different =>
    exact raise_outcome free arena (by decide) (.kinds between different) _
  next same =>
    have kind : a.kind = b.kind := Decidable.not_not.mp same
    split
    next outside =>
      refine raise_outcome free arena (by decide) (.range between kind fun within => ?_) _
      rw [within_iff] at within
      simp [within.1, within.2] at outside
    next inside =>
      have within : q.Within a b := within_iff.mpr (by simpa using inside)
      have valid : q.Valid m.world.heap src dest a b := ⟨between, within, kind⟩
      rw [bind_of_ok library_run]
      dsimp only
      split
      next checked =>
        change q.Outcome m.world ((fitting b.descriptor (movedBy q a) 0 >>= fun fit =>
          placeFitting dest b q.place (movedBy q a) fit) s m)
        cases found : fitting b.descriptor (movedBy q a) 0 s m with
        | error stop m' =>
            obtain ⟨e, rfl⟩ := (fitting_leavesArrays _ _ _).stops found
            have sameArrays := (fitting_leavesArrays _ _ _).keeps.of_error found
            rw [bind_of_error found]
            exact .failed (sameArrays.arrays arena)
        | ok fit m' =>
            obtain ⟨count, refused⟩ := fit
            obtain ⟨rfl, fits⟩ := fitting_ok found
            rw [bind_of_ok found]
            have unassignable :
                m'.world.library.isAssignable a.descriptor b.descriptor = false := by
              simpa using checked.2
            exact placeFitting_outcome free arena quiet valid (fitting_ends
              ⟨checked.1, kind ▸ checked.1⟩ unassignable within fits (fitting_stops found))
      next unchecked =>
        change q.Outcome m.world
          (placeFitting dest b q.place (movedBy q a) ((movedBy q a).length, none) s m)
        refine placeFitting_outcome free arena quiet valid
          (.inl ⟨rfl, movedBy_length within, fun reference => .inl ?_⟩)
        simpa [reference] using unchecked

/-- A copy between what two handles name, which may be no arrays. -/
def copyHandles (src dest : Handle) (srcPlace destPlace length : Int32) : Exec Unit := do
  let fromArray ← ofExcept ((← heap).isArray src)
  let toArray ← if fromArray then ofExcept ((← heap).isArray dest) else pure false
  if fromArray && toArray then copyElements src dest srcPlace destPlace length
  else raise Throwable.arrayStoreException none

theorem copyHandles_outcome (free : m.world.heap.capacity = none) (arena : m.world.heap.Arena)
    (quiet : m.thread.pending = none) (source : q.source.asHandle = .ok (some src))
    (target : q.target.asHandle = .ok (some dest)) :
    q.Outcome m.world (copyHandles src dest q.sourcePlace q.targetPlace q.length s m) := by
  have refused (other : ¬ ∃ a b, m.world.heap.array src = .ok a ∧ m.world.heap.array dest = .ok b) :
      q.Outcome m.world (raise Throwable.arrayStoreException none s m) :=
    raise_outcome free arena (by decide) (.object source target other) _
  rw [copyHandles, bind_of_ok heap_run]
  obtain ⟨a, is, read⟩ | ⟨is, other⟩ | ⟨e, is⟩ := Heap.isArray_cases m.world.heap src
  · rw [is, bind_of_ok (x := ofExcept (.ok true)) (a := true) rfl, if_pos rfl, bind_of_ok heap_run]
    obtain ⟨b, is, written⟩ | ⟨is, other⟩ | ⟨e, is⟩ := Heap.isArray_cases m.world.heap dest
    · rw [is]
      exact copyElements_outcome free arena quiet ⟨source, target, read, written⟩
    · rw [is]
      exact refused fun ⟨_, b, _, written⟩ => other b written
    · rw [is]
      exact .failed id
  · rw [is]
    exact refused fun ⟨a, _, read, _⟩ => other a read
  · rw [is]
    exact .failed id

/-! ### The operands -/

/-- An operand was popped: the others have moved up, and nothing else has changed that a copy looks
at. -/
structure Popped (m m' : Machine) : Prop where
  /-- The world is the same. -/
  world : m'.world = m.world
  /-- The same exception is pending. -/
  pending : m'.thread.pending = m.thread.pending
  /-- The other operands have moved up. -/
  up : ∀ {n v}, m.thread.peek (n + 2) = .ok v → m'.thread.peek (n + 1) = .ok v

theorem peek_eq_ok {t : Thread} {n : Nat} {v : Value} (h : t.peek n = .ok v) :
    0 < n ∧ n ≤ t.operandDepth ∧ ∃ o, t.operands[t.operands.size - n]? = some o ∧ o.value = v := by
  unfold Thread.peek at h
  split at h
  · cases h
  next inside =>
    split at h
    next o found =>
      cases h
      exact ⟨by omega, by omega, o, found, rfl⟩
    · cases h

theorem peek_of_getElem? {t : Thread} {n : Nat} {o : Operand} (some : 0 < n)
    (deep : n ≤ t.operandDepth) (found : t.operands[t.operands.size - n]? = .some o) :
    t.peek n = .ok o.value := by
  unfold Thread.peek
  rw [if_neg (by omega), found]

theorem pop_of_peek {v : Value} (top : m.thread.peek 1 = .ok v) :
    ∃ m', pop s m = .ok v m' ∧ Popped m m' := by
  obtain ⟨-, deep, o, found, rfl⟩ := peek_eq_ok top
  have popped : m.thread.popOperand =
      .ok (o, { m.thread with operands := m.thread.operands.pop }) := by
    unfold Thread.popOperand
    rw [if_neg (by omega), Array.back?_eq_getElem?, found]
  refine ⟨{ m with thread := { m.thread with operands := m.thread.operands.pop } }, ?_, rfl, rfl,
    fun {n v} above => ?_⟩
  · rw [pop, popOperand, bind_of_ok (onThread_of_ok popped)]
    rfl
  · obtain ⟨-, deeper, o', found', rfl⟩ := peek_eq_ok above
    have depth : m.thread.operandDepth = m.thread.operands.size - m.thread.stackBase := rfl
    have size : m.thread.operands.pop.size = m.thread.operands.size - 1 := Array.size_pop
    refine peek_of_getElem? (by omega) (Nat.le_sub_of_add_le ?_) ?_
    · change n + 1 + m.thread.stackBase ≤ m.thread.operands.pop.size
      omega
    · change m.thread.operands.pop[m.thread.operands.pop.size - (n + 1)]? = some o'
      rw [Array.getElem?_pop, size, if_pos (by omega), ← found']
      congr 1
      omega

theorem popInt_of_peek {i : Int32} (top : m.thread.peek 1 = .ok (.int i)) :
    ∃ m', popInt s m = .ok i m' ∧ Popped m m' := by
  obtain ⟨m', popped, rest⟩ := pop_of_peek (s := s) top
  exact ⟨m', by rw [popInt, bind_of_ok popped]; rfl, rest⟩

/-- A copy between arrays ends in one of the ways that there are, whatever the arguments are. -/
theorem arrayCopy_outcome (free : m.world.heap.capacity = none) (arena : m.world.heap.Arena)
    (quiet : m.thread.pending = none) (given : q.Given m.thread) :
    q.Outcome m.world (arrayCopy s m) := by
  obtain ⟨m₁, length, down₁⟩ := popInt_of_peek (s := s) given.length
  obtain ⟨m₂, targetPlace, down₂⟩ := popInt_of_peek (s := s) (down₁.up given.targetPlace)
  obtain ⟨m₃, target, down₃⟩ := pop_of_peek (s := s) (down₂.up (down₁.up given.target))
  obtain ⟨m₄, sourcePlace, down₄⟩ :=
    popInt_of_peek (s := s) (down₃.up (down₂.up (down₁.up given.sourcePlace)))
  obtain ⟨m₅, source, down₅⟩ :=
    pop_of_peek (s := s) (down₄.up (down₃.up (down₂.up (down₁.up given.source))))
  have world₃ : m₃.world = m.world := down₃.world.trans (down₂.world.trans down₁.world)
  have world : m₅.world = m.world := down₅.world.trans (down₄.world.trans world₃)
  have quiet : m₅.thread.pending = none := by
    rw [down₅.pending, down₄.pending, down₃.pending, down₂.pending, down₁.pending, quiet]
  have failed {e : Fault} {last : Machine} (same : last.world = m.world) :
      q.Outcome m.world (.error (.fault e) last) :=
    .failed fun found => same ▸ found
  rw [← world] at free arena failed ⊢
  rw [arrayCopy, bind_of_ok length, bind_of_ok targetPlace, bind_of_ok target]
  cases intoHandle : q.target.asHandle with
  | error e => exact failed (world₃.trans world.symm)
  | ok dest =>
      change q.Outcome m₅.world ((popInt >>= _) s m₃)
      rw [bind_of_ok sourcePlace, bind_of_ok source]
      cases fromHandle : q.source.asHandle with
      | error e => exact failed rfl
      | ok src =>
          cases src with
          | none => exact raise_outcome free arena (by decide) (.null (.inl fromHandle)) _
          | some src =>
              cases dest with
              | none => exact raise_outcome free arena (by decide) (.null (.inr intoHandle)) _
              | some dest =>
                  exact copyHandles_outcome free arena quiet fromHandle intoHandle

end Exec

namespace Sample

/-- A world with an array of three numbers. -/
def numbers : World where
  heap :=
    { cells := #[some ⟨0, .array ⟨"[I", .int, #[.int 1, .int 2, .int 3]⟩⟩]
      live := 1
      made := 1 }

theorem numbers_arena : numbers.heap.Arena where
  live := by decide
  nodup := .nil
  empty i := by rcases i with _ | i <;> simp [numbers]
  serial {r c} found := by
    obtain ⟨_ | i⟩ := r <;> cases found
    decide
  distinct {r r' c c'} found found' _ := by
    obtain ⟨_ | i⟩ := r <;> cases found
    obtain ⟨_ | j⟩ := r' <;> cases found'
    rfl

/-- The first two numbers are copied to the places of the last two. -/
def shift : ArrayCopy := ⟨.array ⟨0⟩, 0, .array ⟨0⟩, 1, 2⟩

/-- A thread with the arguments of a copy. -/
def requested (q : ArrayCopy) : Thread :=
  { id := 0
    operands := #[⟨q.source, 0⟩, ⟨.int q.sourcePlace, 0⟩, ⟨q.target, 0⟩, ⟨.int q.targetPlace, 0⟩,
      ⟨.int q.length, 0⟩] }

theorem requested_given (q : ArrayCopy) : q.Given (requested q) := ⟨rfl, rfl, rfl, rfl, rfl⟩

/-- The bootstrap classes, but with strings that have no characters. -/
def muteClasses : List ClassSpec :=
  Bootstrap.classes.map fun spec =>
    if spec.name = stringClassName then { name := stringClassName } else spec

/-- The machine in which they are registered. -/
def mute : Machine := (Bootstrap.defineAll muteClasses).after {} ⟨{}, { id := 0 }⟩

/-- An array of two arrays, the second one of numbers, and an array for arrays of objects. -/
def shelves : Heap where
  cells := #[some ⟨0, .array ⟨"[Ljava/lang/Object;", .reference, #[.array ⟨0⟩, .array ⟨2⟩]⟩⟩,
    some ⟨1, .array ⟨"[[Ljava/lang/Object;", .reference, #[.null, .null]⟩⟩,
    some ⟨2, .array ⟨"[I", .int, #[]⟩⟩]
  live := 3
  made := 3

theorem mute_registered : Bootstrap.defineAll muteClasses {} ⟨{}, { id := 0 }⟩ = .ok () mute :=
  Bootstrap.defineAll_after (by decide +kernel)

theorem mem_muteClasses {p : String × String} (listed : p ∈ Bootstrap.throwables) :
    Bootstrap.throwable p.1 p.2 ∈ muteClasses := by
  have other : ∀ p ∈ Bootstrap.throwables, p.1 ≠ stringClassName := by decide +kernel
  refine List.mem_map.mpr
    ⟨_, List.mem_append_right _ (List.mem_map_of_mem listed), if_neg (other p listed)⟩

theorem shelves_arena : shelves.Arena where
  live := by decide
  nodup := .nil
  empty i := by rcases i with _ | _ | _ | i <;> simp [shelves]
  serial {r c} found := by
    obtain ⟨_ | _ | _ | i⟩ := r <;> cases found <;> decide
  distinct {r r' c c'} found found' same := by
    obtain ⟨_ | _ | _ | i⟩ := r <;> cases found <;> obtain ⟨_ | _ | _ | j⟩ := r' <;>
      cases found' <;> first | rfl | cases same

/-- Both elements of the one are copied into the other. -/
def sorting : ArrayCopy := ⟨.array ⟨0⟩, 0, .array ⟨1⟩, 0, 2⟩

/-- A machine in front of that copy. -/
def unsorted (w : World) : Machine := ⟨{ w with heap := shelves }, requested sorting⟩

theorem unsorted_library (w : World) : (unsorted w).world.library = w.library := rfl

theorem unsorted_heap (w : World) : (unsorted w).world.heap = shelves := rfl

theorem unsorted_given (w : World) : sorting.Given (unsorted w).thread := requested_given sorting

/-- The copy fails, and the first element has been copied. -/
theorem unsorted_fails : (match Exec.arrayCopy {} (unsorted mute.world) with
    | .error (.fault _) m' => (m'.world.heap.array ⟨1⟩).toOption.any fun a =>
        a.elements.toList.map Value.isNull == [false, true]
    | _ => false) = true := by
  decide +kernel

end Sample

/-- A copy between overlapping ranges of one array. -/
theorem Exec.arrayCopy_outcome_shift :
    Sample.shift.Outcome Sample.numbers
      (arrayCopy {} ⟨Sample.numbers, Sample.requested Sample.shift⟩) ∧
    ∃ a, (arrayCopy.after {} ⟨Sample.numbers, Sample.requested Sample.shift⟩).world.heap.array ⟨0⟩ =
      .ok a ∧ a.elements = #[.int 1, .int 1, .int 2] := by
  have outcome := arrayCopy_outcome (s := {}) (m := ⟨Sample.numbers, Sample.requested Sample.shift⟩)
    rfl Sample.numbers_arena rfl (Sample.requested_given _)
  exact ⟨outcome, _, rfl, rfl⟩

/-- When strings have no characters, the exception for an element cannot be raised, and the elements
in front of that one have been copied. -/
theorem Exec.arrayCopy_falters :
    let m := Sample.unsorted Sample.mute.world
    (∀ p ∈ Bootstrap.throwables, m.world.library.Provides (Bootstrap.throwable p.1 p.2)) ∧
    m.world.heap.capacity = none ∧ m.world.heap.Arena ∧ Sample.sorting.Given m.thread ∧
    ∃ e m', arrayCopy {} m = .error (.fault e) m' ∧
      ¬ m.world.heap.Untouched m'.world.heap := by
  intro m
  have library : m.world.library = Sample.mute.world.library := Sample.unsorted_library _
  have heap : m.world.heap = Sample.shelves := Sample.unsorted_heap _
  rw [library, heap]
  refine ⟨fun p listed => ?_, rfl, Sample.shelves_arena, Sample.unsorted_given _, ?_⟩
  · exact Bootstrap.defineAll_provides Sample.mute_registered (by decide +kernel)
      (Sample.mem_muteClasses listed)
  · have fails := Sample.unsorted_fails
    split at fails
    next e m' run =>
      refine ⟨e, m', run, fun untouched => ?_⟩
      have kept : m'.world.heap.array ⟨1⟩ = .ok ⟨_, _, #[.null, .null]⟩ := untouched rfl
      rw [kept] at fails
      cases fails
    next => cases fails

end JavaMachine
