import JavaMachine.Proofs.ArrayCopies
import JavaMachine.Proofs.Dispatch
import JavaMachine.Proofs.Reading
import JavaMachine.Proofs.Shortage

/-!
# Instructions that store

An instruction that stores into an array or into a field of an object replaces one value on the heap
or none.  What can go wrong goes wrong before the value is replaced, at many points: the field may be
missing, the reference null, the index out of bounds, the operand of another kind.  Some of these
are faults, and some raise an exception.

*Places.*  A heap is looked at as the values at its places, the elements of arrays and the slots of
objects.  A store changes what is at one place.

*Reports.*  An exception is made on the same heap, with a text for its message, and each of the two
may be refused.  While it is made, the slots of the new entries are stored into.  `Heap.Reported`
therefore compares a heap with the one that the instruction has started from, and a field may be
stored into where that one has nothing.
-/

namespace JavaMachine

/-! ## Places -/

/-- A place for a value in an object or an array. -/
inductive Part where
  /-- An element of an array. -/
  | element (i : Nat)
  /-- A slot of an object. -/
  | slot (k : Nat)
  deriving DecidableEq

/-- A place for a value on a heap. -/
structure Place where
  /-- The object or the array. -/
  handle : Handle
  /-- The place in it. -/
  part : Part
  deriving DecidableEq

/-- The value at a place of an object or an array. -/
def Entry.held? : Entry → Part → Option Value
  | .array a, .element i => a.elements[i]?
  | .object _ slots, .slot k => (slots[k]?).map Slot.value
  | _, _ => none

namespace Slot

/-- A value is stored into the first slot of its field and into no other one. -/
theorem getElem?_store {f : FieldDecl} {v : Value} : ∀ {slots : List Slot} {k : Nat},
    slots.findIdx? (·.holds f) = some k → ∀ i : Nat,
      ((store f v slots)[i]?).map Slot.value =
        if i = k then some v else (slots[i]?).map Slot.value
  | [], _, first, _ => nomatch first
  | s :: slots, k, first, i => by
      rw [List.findIdx?_cons] at first
      unfold store
      by_cases here : s.holds f = true
      · rw [if_pos here] at first ⊢
        cases first
        cases i <;> simp
      · rw [if_neg here] at first ⊢
        obtain ⟨k, behind, rfl⟩ := Option.map_eq_some_iff.mp first
        cases i with
        | zero => simp
        | succ i => simpa using getElem?_store behind i

end Slot

namespace Heap

variable {h h' h'' : Heap} {r : Handle} {v : Value}

/-- The value at a place. -/
def held? (h : Heap) (p : Place) : Option Value := (h.cell? p.handle).bind (·.entry.held? p.part)

/-- Between two heaps the value at one place was replaced.  All entries are there that were there
before, and no other ones. -/
structure Stored (h : Heap) (p : Place) (v : Value) (h' : Heap) : Prop where
  /-- There was a value at the place. -/
  there : (h.held? p).isSome = true
  /-- It is another one now, and at every other place there is what was there. -/
  held : ∀ q, h'.held? q = if q = p then some v else h.held? q
  /-- Objects stay objects of their classes, and arrays stay arrays of their types. -/
  retains : h.Retains h'
  /-- There is no new entry. -/
  vacant : ∀ r, h.cell? r = none → h'.cell? r = none

theorem Stored.of_replace {old new : Entry} {part : Part} (read : h.entry r = .ok old)
    (alike : old.Alike new) (there : (old.held? part).isSome = true)
    (held : ∀ q, new.held? q = if q = part then some v else old.held? q) :
    h.Stored ⟨r, part⟩ v (h.replace r new) := by
  obtain ⟨serial, cell⟩ := entry_eq_ok.mp read
  refine ⟨by simpa [held?, cell] using there, fun ⟨r', q⟩ => ?_, .replace read alike,
    fun r' vacant => ?_⟩
  · by_cases here : r' = r
    · subst here
      simp [held?, cell?_replace, cell, held]
    · simp [held?, cell?_replace, here]
  · have other : r' ≠ r := by
      rintro rfl
      exact nomatch vacant.symm.trans cell
    rw [cell?_replace, if_neg other, vacant]

/-- A store into a field replaces the value of the first slot of that field. -/
theorem setField_stored {f : FieldDecl} (stored : h.setField r f v = .ok h') :
    ∃ cls slots k, h.object r = .ok (cls, slots) ∧ slots.findIdx? (·.holds f) = some k ∧
      h.Stored ⟨r, .slot k⟩ v h' := by
  obtain ⟨cls, slots, read, some, rfl⟩ := setField_ok stored
  obtain ⟨k, first⟩ := Option.isSome_iff_exists.mp ((List.findIdx?_isSome).trans some)
  refine ⟨cls, slots, k, object_eq_ok.mpr read, first, .of_replace read rfl ?_ fun q => ?_⟩
  · have inside := (List.findIdx?_eq_some_iff_getElem.mp first).1
    simp [Entry.held?, inside]
  · cases q with
    | element i => rfl
    | slot i => simpa [Entry.held?] using Slot.getElem?_store first i

/-- A store into an array within its bounds replaces one element. -/
theorem replace_element {a : ArrayEntry} {i : Nat} (found : h.array r = .ok a)
    (inside : i < a.elements.size) :
    h.Stored ⟨r, .element i⟩ v
      (h.replace r (.array { a with elements := a.elements.setIfInBounds i v })) := by
  refine .of_replace (array_eq_ok.mp found) ⟨rfl, rfl⟩ (by simp [Entry.held?, inside]) fun q => ?_
  cases q with
  | slot k => rfl
  | element j =>
      simp only [Entry.held?, Array.getElem?_setIfInBounds, Part.element.injEq]
      by_cases same : i = j
      · simp [same, same ▸ inside]
      · simp [same, Ne.symm same]

end Heap

/-! ## Reports -/

/-- An entry is one that is made to report something to a guest: an exception that instructions
raise, or a text. -/
inductive Entry.IsReport : Entry → Prop
  | exception {cls : LoadedClass} {slots : List Slot} (raised : Throwable.Raised cls.name) :
      IsReport (.object cls slots)
  | string {cls : LoadedClass} {slots : List Slot} (named : cls.name = stringClassName) :
      IsReport (.object cls slots)
  | characters (text : String) : IsReport (.characters text)

/-- What an object reports it reports with other values in its slots, too. -/
theorem Entry.IsReport.rewrite {cls : LoadedClass} {slots slots' : List Slot}
    (report : (Entry.object cls slots).IsReport) : (Entry.object cls slots').IsReport := by
  cases report with
  | exception raised => exact .exception raised
  | string named => exact .string named

namespace Heap

variable {h₀ h h' : Heap} {r : Handle} {e : Entry} {v : Value}

/-- All that was on a heap is what it was, and all else that there is now was made for reports. -/
structure Reported (h h' : Heap) : Prop where
  /-- What was there is what it was. -/
  kept : ∀ {r c}, h.cell? r = some c → h'.cell? r = some c
  /-- What was not there is a report. -/
  added : ∀ {r e}, h.cell? r = none → h'.entry r = .ok e → e.IsReport
  /-- The books are in order. -/
  arena : h'.Arena

theorem Reported.refl (arena : h.Arena) : h.Reported h where
  kept := id
  added vacant found := by
    obtain ⟨serial, cell⟩ := entry_eq_ok.mp found
    exact nomatch vacant.symm.trans cell
  arena := arena

/-- At every place where there was a value there is still that value. -/
theorem Reported.held (reported : h.Reported h') {p : Place} (held : h.held? p = some v) :
    h'.held? p = some v := by
  obtain ⟨c, found, value⟩ := Option.bind_eq_some_iff.mp held
  rw [held?, reported.kept found]
  exact value

/-- What is empty now was empty before. -/
theorem Reported.vacant (reported : h₀.Reported h) (empty : h.cell? r = none) :
    h₀.cell? r = none := by
  refine Option.eq_none_iff_forall_ne_some.mpr fun c found => ?_
  exact nomatch empty.symm.trans (reported.kept found)

theorem Reported.insert {reserved : Bool} (reported : h₀.Reported h) (report : e.IsReport)
    (made : h.insert e reserved = .ok (r, h')) : h₀.Reported h' where
  kept := (reported.arena.grown made).kept ∘ reported.kept
  added vacant found := by
    obtain old | rfl := (reported.arena.grown made).entry_cases found
    · exact reported.added vacant old
    · exact report
  arena := reported.arena.insert made

/-- A field of a new object may be stored into. -/
theorem Reported.setField {f : FieldDecl} (reported : h₀.Reported h) (fresh : h₀.cell? r = none)
    (stored : h.setField r f v = .ok h') : h₀.Reported h' := by
  obtain ⟨cls, slots, read, -, rfl⟩ := setField_ok stored
  refine ⟨fun {r' c} found => ?_, fun {r' e} vacant found => ?_, reported.arena.replace⟩
  · have other : r' ≠ r := by
      rintro rfl
      exact nomatch fresh.symm.trans found
    rw [cell?_replace, if_neg other, reported.kept found]
  · obtain old | rfl := entry_replace_cases found
    · exact reported.added vacant old
    · exact (reported.added fresh read).rewrite

end Heap

/-- Seen from the heap that an instruction has started from, only reports were made. -/
def Machine.Reports (h₀ : Heap) (m m' : Machine) : Prop :=
  h₀.Reported m.world.heap → h₀.Reported m'.world.heap

instance (h₀ : Heap) : AllowsReports (Machine.Reports h₀) where
  refl _ := id
  trans _ _ _ first second := second ∘ first
  reports _ _ _ := id
  remembers _ _ := id

theorem Machine.SameHeapPending.reports {h₀ : Heap} {m m' : Machine}
    (sameHeap : m.SameHeapPending m') :
    m.Reports h₀ m' := fun reported => sameHeap.heap ▸ reported

theorem Machine.SameHeapPending.reported {m m' : Machine} (sameHeap : m.SameHeapPending m')
    (arena : m.world.heap.Arena) :
    m.world.heap.Reported m'.world.heap := sameHeap.reports (.refl arena)

namespace Exec

variable {α : Type} {h₀ : Heap} {s : Settings} {m m' : Machine} {className : String}

theorem Keeps.reports {x : Exec α} (hx : Keeps Machine.SameHeapPending x) :
    Keeps (Machine.Reports h₀) x :=
  hx.mono fun _ _ => Machine.SameHeapPending.reports

/-- An allocation of a report. -/
theorem allocate_reports {g : Heap → Except Fault (Handle × Heap)}
    (made : ∀ {h r h'}, g h = .ok (r, h') →
      ∃ e reserved, e.IsReport ∧ h.insert e reserved = .ok (r, h')) :
    Keeps (Machine.Reports h₀) (allocate g) := by
  refine fun _ _ => allocate_allowed fun r heap asked => ?_
  obtain ⟨e, reserved, report, inserted⟩ := made asked
  exact fun reported => reported.insert report inserted

theorem newInstance_reports {cls : LoadedClass} (reserved : Bool)
    (report : ∀ slots, (Entry.object cls slots).IsReport) :
    Keeps (Machine.Reports h₀) (newInstance cls reserved) :=
  library_keeps.bind fun _ => allocate_reports fun made => ⟨_, _, report _, made⟩

/-- Where an object is made, there was nothing. -/
theorem newInstance_fresh {cls : LoadedClass} {reserved : Bool} {r : Handle}
    (reported : h₀.Reported m.world.heap) (h : newInstance cls reserved s m = .ok r m') :
    h₀.cell? r = none := by
  obtain ⟨heap, made, -⟩ := allocate_ok (newInstance_eq cls reserved ▸ h)
  exact reported.vacant (reported.arena.grown made).vacant

theorem setField_reports {r : Handle} (fresh : h₀.cell? r = none) (f : FieldDecl) (v : Value) :
    Keeps (Machine.Reports h₀) (setField r f v) :=
  fun _ _ => setField_allowed fun _ stored reported => reported.setField fresh stored

theorem newCharacters_reports (text : String) :
    Keeps (Machine.Reports h₀) (newCharacters text) := by
  refine Keeps.bind (allocate_reports fun made => ⟨_, _, .characters text, made⟩) fun chars => ?_
  exact .bind (modifyWorld_sameHeap (fun _ => rfl) fun _ => rfl).reports fun _ => .pure _

/-- The object of a string is new when its characters are put into it. -/
theorem newString_reports (text : String) : Keeps (Machine.Reports h₀) (newString text) := by
  intro s m
  refine Keeps.bind_after (findClass_keeps _ s m) fun cls m₁ looked => ?_
  obtain ⟨rfl, found⟩ := findClass_ok looked
  have named := Library.name_of_find? found
  refine Keeps.bind_after (resolveField_keeps _ _ s m₁) fun field m₂ _ => ?_
  split
  · exact Keeps.fail _ s m₂
  · refine Keeps.bind_after (newCharacters_reports text s m₂) fun chars m₃ filled => ?_
    intro reported
    refine (?_ : Machine.Reports h₀ m₃ _) reported
    refine Keeps.bind_after (newInstance_reports false (fun _ => .string named) s m₃)
      fun string m₄ made => ?_
    have fresh := newInstance_fresh reported made
    exact ((setField_reports fresh _ _).bind fun _ => .pure _) s m₄

theorem attachMessage_reports {exception : Handle} (fresh : h₀.cell? exception = none)
    (className message : String) :
    Keeps (Machine.Reports h₀) (attachMessage exception className message) := by
  refine (resolveField_keeps _ _).bind fun field => ?_
  split
  · exact .pure _
  · refine (newString_reports message).attempt.bind fun text => ?_
    split
    · exact setField_reports fresh _ _
    · split
      · exact .pure _
      · exact .fail _

theorem setPending_reports (r : Handle) : Keeps (Machine.Reports h₀) (setPending r) :=
  fun _ _ reported => reported

theorem raiseOutOfMemory_reports : Keeps (Machine.Reports h₀) raiseOutOfMemory := by
  refine (report_keeps _).bind fun _ s m => ?_
  refine Keeps.bind_after (findClass_keeps _ s m) fun cls m₁ looked => ?_
  obtain ⟨rfl, found⟩ := findClass_ok looked
  have raised : Throwable.Raised cls.name := Library.name_of_find? found ▸ .outOfMemory
  exact Keeps.bind (newInstance_reports true fun _ => .exception raised)
    (fun r => setPending_reports r) s m₁

theorem orOutOfMemory_reports {x : Exec α} (hx : Keeps (Machine.Reports h₀) x) :
    Keeps (Machine.Reports h₀) (orOutOfMemory x) :=
  fun s m => orOutOfMemory_allowed raiseOutOfMemory_reports (hx s m)

theorem raise_reports (className : String) (message : Option String)
    [raised : Throwable.Raised className] :
    Keeps (Machine.Reports h₀) (raise className message) := by
  unfold raise
  split
  · exact raiseOutOfMemory_reports
  · refine (report_keeps _).bind fun _ s m => ?_
    refine Keeps.bind_after (findClass_keeps _ s m) fun cls m₁ looked => ?_
    obtain ⟨rfl, found⟩ := findClass_ok looked
    rw [← Library.name_of_find? found] at raised
    intro reported
    refine (?_ : Machine.Reports h₀ m₁ _) reported
    have makes : Keeps (Machine.Reports h₀) (newInstance cls false) :=
      newInstance_reports false fun _ => .exception raised
    refine Keeps.bind_after (orOutOfMemory_reports makes s m₁) fun exception m₂ asked => ?_
    cases exception with
    | none => exact Keeps.pure _ s m₂
    | some exception =>
        have fresh := newInstance_fresh reported (orOutOfMemory_some asked)
        cases message with
        | none => exact setPending_reports exception s m₂
        | some message =>
            exact ((attachMessage_reports fresh _ _).bind fun _ => setPending_reports _) s m₂

/-! ## What is looked up for an instruction -/

/-- A computation that leaves the heap alone, and if it stops, it stops in a fault. -/
abbrev LeavesHeap (x : Exec α) : Prop := Tame Machine.SameHeapPending x

theorem heap_leavesHeap : LeavesHeap heap := ⟨heap_keeps, nofun⟩

theorem library_leavesHeap : LeavesHeap library := ⟨library_keeps, nofun⟩

theorem pop_leavesHeap : LeavesHeap pop := ⟨pop_sameHeap, pop_leavesArrays.stops⟩

theorem popInt_leavesHeap : LeavesHeap popInt := ⟨popInt_sameHeap, popInt_leavesArrays.stops⟩

theorem readFieldRef_leavesHeap : LeavesHeap readFieldRef := by
  refine Tame.bind ⟨(onFrame_sameHeap _).bind fun _ => .pure _, readU16_local.stops⟩ fun index => ?_
  refine Tame.bind ⟨frame_keeps, frame_local.stops⟩ fun f => (Tame.ofExcept _).bind fun c => ?_
  split
  · exact .pure _
  · exact .fail _

theorem misfit_leavesHeap (descriptor : String) (v : Value) : LeavesHeap (misfit descriptor v) := by
  refine ⟨fun s m => ?_, (misfit_leavesArrays descriptor v).stops⟩
  unfold misfit
  split
  · exact Std.Refl.refl m
  · refine Keeps.bind (fun s m => ?_) (fun source => library_keeps.bind fun lib => ?_) s m
    · rw [after, runtimeTypeName_run]
      cases m.world.heap.typeName v <;> exact Std.Refl.refl m
    · split <;> exact .pure _

/-- A computation that looks something up for a guest.  It has found it and has left the heap alone,
or it has raised an exception, or it has failed. -/
structure Seeks (x : Exec (Option α)) : Prop where
  /-- The heap is the same when something was found. -/
  found : ∀ {s m a m'}, x s m = .ok (some a) m' → m.SameHeapPending m'
  /-- An exception is pending when nothing was found. -/
  raised : ∀ {s m m'}, x s m = .ok none m' → m'.thread.pending ≠ none
  /-- In any case only reports were made. -/
  reports : ∀ h₀, Keeps (Machine.Reports h₀) x
  /-- When it stops, it stops in a fault. -/
  stops : ∀ {s m stop m'}, x s m = .error stop m' → ∃ e, stop = .fault e

namespace Seeks

variable {β : Type} {x : Exec (Option α)}

theorem answer (a : α) : Seeks (pure (some a)) where
  found h := by
    cases h
    exact Std.Refl.refl _
  raised h := nomatch h
  reports _ := .pure _
  stops h := nomatch h

theorem fail (e : Fault) : Seeks (Exec.fail e : Exec (Option α)) where
  found h := nomatch h
  raised h := nomatch h
  reports _ := .fail e
  stops h := by
    cases h
    exact ⟨e, rfl⟩

/-- Instead of what was asked for an exception is raised. -/
theorem raise (className : String) (message : Option String) [Throwable.Raised className] :
    Seeks (do raise className message; return (none : Option α)) where
  found h := by
    obtain ⟨_, mid, -, h⟩ := bind_eq_ok h
    cases h
  raised h := by
    obtain ⟨_, mid, raised, h⟩ := bind_eq_ok h
    cases h
    exact raise_pending raised
  reports _ := (raise_reports className message).bind fun _ => .pure _
  stops h := by
    obtain failed | ⟨_, mid, -, h⟩ := bind_eq_error h
    · exact (raise_leavesArrays className message).stops failed
    · cases h

theorem bind_leavesHeap {x : Exec β} {f : β → Exec (Option α)} (hx : LeavesHeap x)
    (hf : ∀ b, Seeks (f b)) :
    Seeks (x >>= f) where
  found h := by
    obtain ⟨b, mid, first, h⟩ := bind_eq_ok h
    exact IsTrans.trans _ _ _ (hx.keeps.of_ok first) ((hf b).found h)
  raised h := by
    obtain ⟨b, mid, -, h⟩ := bind_eq_ok h
    exact (hf b).raised h
  reports h₀ := hx.keeps.reports.bind fun b => (hf b).reports h₀
  stops h := by
    obtain failed | ⟨b, mid, -, h⟩ := bind_eq_error h
    · exact hx.stops failed
    · exact (hf b).stops h

theorem bind {f : Option α → Exec (Option β)} (hx : Seeks x) (none : f none = pure none)
    (hf : ∀ a, Seeks (f (some a))) : Seeks (x >>= f) where
  found h := by
    obtain ⟨b, mid, first, h⟩ := bind_eq_ok h
    cases b with
    | none =>
        rw [none] at h
        cases h
    | some b => exact IsTrans.trans _ _ _ (hx.found first) ((hf b).found h)
  raised h := by
    obtain ⟨b, mid, first, h⟩ := bind_eq_ok h
    cases b with
    | none =>
        rw [none] at h
        cases h
        exact hx.raised first
    | some b => exact (hf b).raised h
  reports h₀ := (hx.reports h₀).bind fun b => by
    cases b with
    | none =>
        rw [none]
        exact .pure _
    | some b => exact (hf b).reports h₀
  stops h := by
    obtain failed | ⟨b, mid, -, h⟩ := bind_eq_error h
    · exact hx.stops failed
    · cases b with
      | none =>
          rw [none] at h
          cases h
      | some b => exact (hf b).stops h

end Seeks

theorem resolveClass_seeks (name : String) : Seeks (resolveClass name) := by
  refine .bind_leavesHeap library_leavesHeap fun lib => ?_
  split
  · exact .answer _
  · exact .raise _ _

theorem resolveFieldRef_seeks (ref : MemberRef) : Seeks (resolveFieldRef ref) := by
  refine (resolveClass_seeks _).bind rfl fun _ => ?_
  refine .bind_leavesHeap ⟨resolveField_keeps _ _, (resolveField_leavesArrays _ _).stops⟩
    fun f => ?_
  split
  · exact .answer _
  · exact .raise _ _

theorem readField_seeks (static : Bool) : Seeks (readField static) := by
  refine .bind_leavesHeap readFieldRef_leavesHeap fun ref => (resolveFieldRef_seeks ref).bind rfl
    fun f => ?_
  dsimp only
  split
  · exact .answer _
  · exact .raise _ _

theorem popArrayAt_seeks (index : Int32) : Seeks (popArrayAt index) := by
  refine .bind_leavesHeap pop_leavesHeap fun v => ?_
  split
  · exact .raise _ _
  · refine .bind_leavesHeap heap_leavesHeap fun h => .bind_leavesHeap (.ofExcept _) fun length => ?_
    split
    · exact .answer _
    · exact .raise _ _
  · exact .fail _

/-- An array that was popped has a place for the index. -/
theorem popArrayAt_some {index : Int32} {r : Handle} (h : popArrayAt index s m = .ok (some r) m') :
    pop s m = .ok (.array r) m' ∧ ∃ a i, m.world.heap.array r = .ok a ∧
      Heap.place? a.elements.size index = some i := by
  obtain ⟨v, mid, popped, h⟩ := bind_eq_ok h
  split at h
  · obtain ⟨_, last, -, h⟩ := bind_eq_ok h
    cases h
  next r' =>
    rw [bind_of_ok heap_run] at h
    obtain ⟨length, last, measured, rest⟩ := bind_eq_ok h
    obtain ⟨measured, rfl⟩ := ofExcept_eq_ok measured
    rw [(pop_sameHeap.of_ok popped).heap, Heap.arrayLength] at measured
    cases found : m.world.heap.array r' with
    | error e =>
        rw [found] at measured
        cases measured
    | ok a =>
        rw [found] at measured
        cases measured
        cases inside : Heap.place? a.elements.size index with
        | some i =>
            rw [inside] at rest
            cases rest
            exact ⟨popped, a, i, found, inside⟩
        | none =>
            rw [inside] at rest
            obtain ⟨_, last, -, rest⟩ := bind_eq_ok rest
            cases rest
  · cases h

/-! ## What an instruction is about -/

/-- What is popped was on top, and below it the operands are what they were. -/
theorem pop_peeked {v : Value} (h : pop s m = .ok v m') : m.thread.peek 1 = .ok v ∧
    ∀ {n u}, m'.thread.peek n = .ok u → m.thread.peek (n + 1) = .ok u := by
  obtain ⟨o, mid, popped, h⟩ := bind_eq_ok h
  cases h
  cases took : m.thread.popOperand with
  | error e =>
      rw [popOperand, onThread_of_error took] at popped
      cases popped
  | ok result =>
      rw [popOperand, onThread_of_ok (t := result.2) took] at popped
      cases popped
      unfold Thread.popOperand at took
      split at took
      · cases took
      next some =>
        split at took
        next o top =>
          cases took
          rw [Array.back?_eq_getElem?] at top
          refine ⟨peek_of_getElem? Nat.one_pos (by omega) top, fun {n u} below => ?_⟩
          obtain ⟨pos, deep, o', found, rfl⟩ := peek_eq_ok below
          have depth : m.thread.operandDepth = m.thread.operands.size - m.thread.stackBase := rfl
          have shrunk : m.thread.operands.pop.size = m.thread.operands.size - 1 := Array.size_pop
          change n ≤ m.thread.operands.pop.size - m.thread.stackBase at deep
          change m.thread.operands.pop[m.thread.operands.pop.size - n]? = .some o' at found
          rw [Array.getElem?_pop, shrunk, if_pos (by omega)] at found
          refine peek_of_getElem? (by omega) (by omega) ?_
          rw [← found]
          congr 1
          omega
        · cases took

/-- Reading bytes moves the frame on and leaves the operands alone. -/
theorem readBytes_peek {count a : Nat} (h : onFrame (·.readBytes count) s m = .ok a m') (n : Nat) :
    m'.thread.peek n = m.thread.peek n := by
  cases current : m.thread.frames with
  | nil =>
      have none : m.thread.frame = .error .noActiveFrame := by rw [Thread.frame, current]
      rw [onFrame, onThread_of_error (e := .noActiveFrame) (by rw [none]; rfl)] at h
      cases h
  | cons f rest =>
      obtain ⟨f', read⟩ := onFrame_eq_ok current h
      cases (onFrame_of_ok current read).symm.trans h
      have base : f'.stackBase = f.stackBase := by
        rw [Frame.readBytes, Frame.advance] at read
        split at read
        · cases read
          rfl
        · cases read
      simp only [Thread.peek, Thread.operandDepth, Thread.stackBase, current, base]

theorem readFieldRef_peek {ref : MemberRef} (h : readFieldRef s m = .ok ref m') (n : Nat) :
    m'.thread.peek n = m.thread.peek n := by
  obtain ⟨index, m₁, bytes, h⟩ := bind_eq_ok h
  obtain ⟨f, m₂, framed, looked⟩ := bind_eq_ok h
  obtain ⟨c, m₃, named, answered⟩ := bind_eq_ok looked
  obtain ⟨number, m₄, read, ended⟩ := bind_eq_ok bytes
  cases ended
  obtain ⟨-, rfl⟩ := ofExcept_eq_ok named
  have same : m' = m₃ := by
    split at answered <;> cases answered
    rfl
  rw [same, frame_ok framed]
  exact readBytes_peek read n

/-- When the field of a reference is found, the thread is the same. -/
theorem resolveFieldRef_thread {ref : MemberRef} {f : FieldRef}
    (h : resolveFieldRef ref s m = .ok (some f) m') : m'.thread = m.thread := by
  obtain ⟨cls, m₁, found, looked⟩ := bind_eq_ok h
  cases cls with
  | none => cases looked
  | some cls =>
      obtain ⟨rfl, -⟩ := resolveClass_some found
      obtain ⟨field, m₂, searched, answered⟩ := bind_eq_ok looked
      have sameThread : m₁.SameThread m₂ := (resolveField_keeps _ _).of_ok searched
      cases field with
      | none =>
          obtain ⟨_, m₃, -, answered⟩ := bind_eq_ok answered
          cases answered
      | some g =>
          cases answered
          exact sameThread.thread

/-- When the field that an instruction names is found, no operand was taken. -/
theorem readField_peek {static : Bool} {f : FieldRef} (h : readField static s m = .ok (some f) m')
    (n : Nat) : m'.thread.peek n = m.thread.peek n := by
  obtain ⟨ref, m₁, read, h⟩ := bind_eq_ok h
  obtain ⟨field, m₂, resolved, h⟩ := bind_eq_ok h
  cases field with
  | none => cases h
  | some g =>
      dsimp only at h
      split at h
      · cases h
        rw [resolveFieldRef_thread resolved, readFieldRef_peek read]
      · obtain ⟨_, m₃, -, h⟩ := bind_eq_ok h
        cases h

end Exec

/-- An instruction that stores into an array or into a field of an object. -/
inductive Opcode.Stores : Opcode → Prop
  | element (kind : ElementKind) : Stores (.arrayStore kind)
  | field : Stores .putField

/-- A place that an instruction is to store into, and the value that it is to store there, as its
operands say it and the field reference behind it. -/
inductive Machine.Aims (s : Settings) (m : Machine) : Opcode → Place → Value → Prop
  /-- The top operand is stored into the array that is the third one, at the index in between. -/
  | element {kind : ElementKind} {r : Handle} {a : ArrayEntry} {place operand v : Value}
      {index : Int32} {i : Nat} (target : m.thread.peek 3 = .ok (.array r))
      (second : m.thread.peek 2 = .ok place) (int : place.asInt = .ok index)
      (top : m.thread.peek 1 = .ok operand) (found : m.world.heap.array r = .ok a)
      (inside : Heap.place? a.elements.size index = some i)
      (converted : Exec.primitiveElement kind a.descriptor operand = .ok v) :
      Aims s m (.arrayStore kind) ⟨r, .element i⟩ v
  /-- The top operand is stored into the field of the object that is the second one. -/
  | field {f : FieldRef} {mid : Machine} {r : Handle} {cls : LoadedClass} {slots : List Slot}
      {k : Nat} {operand v : Value} (named : Exec.readField false s m = .ok (some f) mid)
      (target : m.thread.peek 2 = .ok (.object r)) (top : m.thread.peek 1 = .ok operand)
      (found : m.world.heap.object r = .ok (cls, slots))
      (first : slots.findIdx? (·.holds f.decl) = some k)
      (converted : operand.coerceTo f.decl.type = .ok v) :
      Aims s m .putField ⟨r, .slot k⟩ v

/-- How an instruction that stores ends, if its answer is the given one when it does not stop. -/
inductive StoreOutcome {α : Type} (s : Settings) (m : Machine) (op : Opcode) (a : α) :
    EStateM.Result Stop Machine α → Prop
  /-- One value was replaced, the one at the place that the instruction is about. -/
  | stored {p : Place} {v : Value} {m' : Machine} (aims : m.Aims s op p v)
      (quiet : m'.thread.pending = none) (stored : m.world.heap.Stored p v m'.world.heap) :
      StoreOutcome s m op a (.ok a m')
  /-- An exception is pending, and only reports were made. -/
  | raised {exception : Handle} {m' : Machine} (pending : m'.thread.pending = some exception)
      (reported : m.world.heap.Reported m'.world.heap) : StoreOutcome s m op a (.ok a m')
  /-- The host side failed, and only reports were made. -/
  | failed {e : Fault} {m' : Machine} (reported : m.world.heap.Reported m'.world.heap) :
      StoreOutcome s m op a (.error (.fault e) m')

namespace Exec

section

variable {α β : Type} {s : Settings} {m mid m' : Machine} {op : Opcode} {a : α}

/-- What is done in front of the store leaves the heap alone, or it fails. -/
theorem LeavesHeap.outcome {x : Exec β} {f : β → Exec α} (hx : LeavesHeap x)
    (sameHeap : m.SameHeapPending mid)
    (arena : m.world.heap.Arena) (rest : ∀ b m', x s mid = .ok b m' → m.SameHeapPending m' →
      StoreOutcome s m op a (f b s m')) : StoreOutcome s m op a ((x >>= f) s mid) := by
  cases run : x s mid with
  | ok b m' =>
      rw [bind_of_ok run]
      exact rest b m' run (IsTrans.trans _ _ _ sameHeap (hx.keeps.of_ok run))
  | error stop m' =>
      obtain ⟨e, rfl⟩ := hx.stops run
      rw [bind_of_error run]
      exact .failed ((hx.keeps.of_error run).reports (sameHeap.reported arena))

/-- What is looked up in front of the store is found, or nothing is stored. -/
theorem Seeks.outcome {x : Exec (Option β)} {f : Option β → Exec α} (hx : Seeks x)
    (sameHeap : m.SameHeapPending mid) (arena : m.world.heap.Arena) (none : f none = pure a)
    (rest : ∀ b m', x s mid = .ok (some b) m' → m.SameHeapPending m' →
      StoreOutcome s m op a (f (some b) s m')) : StoreOutcome s m op a ((x >>= f) s mid) := by
  have reports := hx.reports m.world.heap s mid
  cases run : x s mid with
  | ok b m' =>
      rw [bind_of_ok run]
      rw [after_of_ok run] at reports
      cases b with
      | none =>
          obtain ⟨exception, pending⟩ := Option.ne_none_iff_exists'.mp (hx.raised run)
          rw [none]
          exact .raised pending (reports (sameHeap.reported arena))
      | some b => exact rest b m' run (IsTrans.trans _ _ _ sameHeap (hx.found run))
  | error stop m' =>
      obtain ⟨e, rfl⟩ := hx.stops run
      rw [bind_of_error run]
      rw [after_of_error run] at reports
      exact .failed (reports (sameHeap.reported arena))

/-- An exception is raised in place of the store. -/
theorem raise_storeless {className : String} {message : Option String}
    [Throwable.Raised className] (sameHeap : m.SameHeapPending mid) (arena : m.world.heap.Arena) :
    StoreOutcome s m op () (raise className message s mid) := by
  have reports : Machine.Reports m.world.heap mid _ := raise_reports className message s mid
  cases run : raise className message s mid with
  | ok _ m' =>
      rw [after_of_ok run] at reports
      obtain ⟨exception, pending⟩ := Option.ne_none_iff_exists'.mp (raise_pending run)
      exact .raised pending (reports (sameHeap.reported arena))
  | error stop m' =>
      obtain ⟨e, rfl⟩ := (raise_leavesArrays className message).stops run
      rw [after_of_error run] at reports
      exact .failed (reports (sameHeap.reported arena))

end

variable {s : Settings} {m m' : Machine}

/-- An element that fits is stored, at the index that was found to be within the bounds. -/
theorem storeFitting_stores {r : Handle} {a : ArrayEntry} {index : Int32} {i : Nat}
    (found : m.world.heap.array r = .ok a)
    (inside : Heap.place? a.elements.size index = some i) (kind : ElementKind)
    (descriptor : String) (v : Value) (s : Settings) :
    ∃ m', storeFitting kind r index descriptor v none s m = .ok () m' ∧ m'.thread = m.thread ∧
      m.world.heap.Stored ⟨r, .element i⟩ v m'.world.heap := by
  rw [storeFitting_run, found, Heap.storeElement_inside found inside]
  exact ⟨_, rfl, rfl, Heap.replace_element found (Heap.place?_lt inside)⟩

/-- An instruction that stores into an array replaces one element or none. -/
theorem arrayStore_outcome (kind : ElementKind) (arena : m.world.heap.Arena)
    (quiet : m.thread.pending = none) :
    StoreOutcome s m (.arrayStore kind) () (arrayStore kind s m) := by
  refine pop_leavesHeap.outcome (Std.Refl.refl m) arena fun operand m₁ popped sameHeap => ?_
  refine popInt_leavesHeap.outcome sameHeap arena fun index m₂ placed sameHeap => ?_
  refine (popArrayAt_seeks index).outcome sameHeap arena rfl fun r m₃ aimed sameHeap₃ => ?_
  refine heap_leavesHeap.outcome sameHeap₃ arena fun h m₄ looked sameHeap₄ => ?_
  refine LeavesHeap.outcome (.ofExcept _) sameHeap₄ arena
    fun descriptor m₅ described sameHeap₅ => ?_
  refine LeavesHeap.outcome (.ofExcept _) sameHeap₅ arena fun v m₆ made sameHeap₆ => ?_
  cases looked
  obtain ⟨described, rfl⟩ := ofExcept_eq_ok described
  obtain ⟨converted, rfl⟩ := ofExcept_eq_ok made
  obtain ⟨target, a, i, found, inside⟩ := popArrayAt_some aimed
  rw [sameHeap.heap] at found
  rw [sameHeap₃.heap, Heap.arrayDescriptor, found] at described
  cases described
  have aims : m.Aims s (.arrayStore kind) ⟨r, .element i⟩ v := by
    obtain ⟨place, _, second, isInt⟩ := bind_eq_ok placed
    obtain ⟨int, rfl⟩ := ofExcept_eq_ok isInt
    obtain ⟨top, below₁⟩ := pop_peeked popped
    obtain ⟨second, below₂⟩ := pop_peeked second
    obtain ⟨third, -⟩ := pop_peeked target
    exact .element (below₁ (below₂ third)) (below₁ second) int top found inside converted
  have stores {refused : Option String} {mid : Machine} (sameHeap : m.SameHeapPending mid) :
      StoreOutcome s m (.arrayStore kind) ()
        (storeFitting kind r index a.descriptor v refused s mid) := by
    cases refused with
    | some source =>
        change StoreOutcome s m _ () (raise Throwable.arrayStoreException _ s mid)
        exact raise_storeless sameHeap arena
    | none =>
        obtain ⟨m', run, thread, stored⟩ :=
          storeFitting_stores (sameHeap.heap.symm ▸ found) inside kind a.descriptor v s
        rw [run]
        refine .stored aims ?_ (sameHeap.heap ▸ stored)
        rw [thread, sameHeap.pending, quiet]
  dsimp only
  split
  · exact (misfit_leavesHeap _ _).outcome sameHeap₆ arena
      fun refused m₇ _ sameHeap₇ => stores sameHeap₇
  · exact LeavesHeap.outcome (.pure none) sameHeap₆ arena
      fun refused m₇ _ sameHeap₇ => stores sameHeap₇

/-- An instruction that stores into a field of an object replaces the value of one slot or none. -/
theorem putInstanceField_outcome (arena : m.world.heap.Arena) (quiet : m.thread.pending = none) :
    StoreOutcome s m .putField () (putInstanceField s m) := by
  refine (readField_seeks false).outcome (Std.Refl.refl m) arena rfl fun f m₁ named sameHeap₁ => ?_
  refine pop_leavesHeap.outcome sameHeap₁ arena fun operand m₂ popped sameHeap₂ => ?_
  refine LeavesHeap.outcome (.ofExcept _) sameHeap₂ arena fun v m₃ coerced sameHeap₃ => ?_
  obtain ⟨converted, rfl⟩ := ofExcept_eq_ok coerced
  refine pop_leavesHeap.outcome sameHeap₃ arena fun target m₄ popped' sameHeap₄ => ?_
  obtain ⟨top, below⟩ := pop_peeked popped
  obtain ⟨second, -⟩ := pop_peeked popped'
  have second := below second
  rw [readField_peek named] at top second
  cases target with
  | null => exact raise_storeless sameHeap₄ arena
  | object r =>
      refine heap_leavesHeap.outcome sameHeap₄ arena fun h m₅ looked sameHeap₅ => ?_
      cases looked
      rw [sameHeap₄.heap]
      cases stored : m.world.heap.setField r f.decl v with
      | error e => exact .failed (sameHeap₄.reported arena)
      | ok heap =>
          obtain ⟨cls, slots, k, found, first, stored⟩ := Heap.setField_stored stored
          exact .stored (.field named second top found first converted)
            (sameHeap₄.pending.trans quiet) stored
  | _ => exact .failed (sameHeap₄.reported arena)

end Exec

/-- An answer is put in the place of another one. -/
theorem StoreOutcome.answer {α β : Type} {s : Settings} {m : Machine} {op : Opcode} {x : Exec α}
    {a : α} {b : β} (h : StoreOutcome s m op a (x s m)) :
    StoreOutcome s m op b ((x >>= fun _ => pure b) s m) := by
  cases run : x s m with
  | ok c m' =>
      rw [run] at h
      rw [Exec.bind_of_ok run]
      cases h with
      | stored aims quiet stored => exact .stored aims quiet stored
      | raised pending reported => exact .raised pending reported
  | error stop m' =>
      rw [run] at h
      rw [Exec.bind_of_error run]
      cases h with
      | failed reported => exact .failed reported

/-- An instruction that stores writes one value or none.  In a machine with no exception pending it
replaces the value at the place that it is about, and goes on with no exception pending; or an
exception is pending, or it fails, and then all that was on the heap is what it was, and what is new
there are exceptions and their messages. -/
theorem Exec.store_outcome {op : Opcode} (stores : op.Stores) (host : Host) (s : Settings)
    {m : Machine} (arena : m.world.heap.Arena) (quiet : m.thread.pending = none) :
    StoreOutcome s m op .next (perform host op s m) := by
  cases stores with
  | element kind => exact (arrayStore_outcome kind arena quiet).answer
  | field => exact (putInstanceField_outcome arena quiet).answer

/-- An object is stored into an array of objects. -/
theorem Exec.store_outcome_shelf :
    let m : Machine := ⟨Sample.shelf, Sample.storing⟩
    let result := perform (Engine.host coreNatives 1) (.arrayStore .reference) {} m
    StoreOutcome {} m (.arrayStore .reference) .next result ∧
      m.world.heap.held? ⟨⟨0⟩, .element 0⟩ = some .null ∧
      ∃ m', result = .ok .next m' ∧ m'.thread.pending = none ∧
        m'.world.heap.held? ⟨⟨0⟩, .element 0⟩ = some (.object ⟨1⟩) :=
  ⟨store_outcome (.element .reference) _ {} Sample.shelf_arena rfl, rfl, _, rfl, rfl, rfl⟩

end JavaMachine
