import JavaMachine.Proofs.ElementKinds
import JavaMachine.Proofs.Exhaustion
import JavaMachine.Proofs.Initialisation
import JavaMachine.Proofs.Outcomes

/-!
# Running out of memory

What is asked for on behalf of the guest is given or refused, and when it is refused the memory
error is made past the capacity of the heap.  This file follows the pieces that operations ask
memory for, an object, an array, a string, an array of arrays, up to the refusal.  A piece is
described by the entries that it may have made before.  None of them touches what was there, and
none takes back what it has made.
-/

namespace JavaMachine

open Exec

/-! ## The memory error -/

/-- An entry is the memory error. -/
def Entry.IsMemoryError : Entry → Prop
  | .object cls _ => cls.name = Throwable.outOfMemoryError
  | .array _ => False

namespace Machine

/-- The memory error is pending. -/
def OutOfMemory (m : Machine) : Prop :=
  ∃ r, m.thread.pending = some r ∧
    m.world.heap.typeName (.object r) = .ok Throwable.outOfMemoryError

/-- Between two machines memory was refused: what had been made is left, and the memory error was
made and is pending. -/
def Starved (left : List Entry) (m m' : Machine) : Prop :=
  ∃ new r e, new.map Prod.snd = left ∧ m.world.heap.Extended (new ++ [(r, e)]) m'.world.heap ∧
    e.IsMemoryError ∧ m'.thread.pending = some r

theorem Starved.outOfMemory {left : List Entry} {m m' : Machine} (starved : m.Starved left m') :
    m'.OutOfMemory := by
  obtain ⟨new, r, e, -, extended, error, pending⟩ := starved
  have there : m'.world.heap.entry r = .ok e := extended.added (r, e) (by simp)
  cases e with
  | array => exact error.elim
  | object cls slots =>
      refine ⟨r, pending, ?_⟩
      rw [Heap.typeName, Heap.classOf, Heap.object_eq_ok.mpr there]
      exact congrArg Except.ok error

/-- What had been made before memory was refused is left. -/
theorem Starved.after {new : List (Handle × Entry)} {a b c : Machine} {left : List Entry}
    (starved : b.Starved left c) (extended : a.world.heap.Extended new b.world.heap) :
    a.Starved (new.map Prod.snd ++ left) c := by
  obtain ⟨later, r, e, rfl, longer, error, pending⟩ := starved
  exact ⟨new ++ later, r, e, List.map_append, by simpa using extended.trans longer, error, pending⟩

/-- Between two machines the heap and the library are the same, and so is the pending exception. -/
structure SameHeapPending (m m' : Machine) : Prop where
  /-- The heap is the same. -/
  heap : m'.world.heap = m.world.heap
  /-- The library is the same. -/
  library : m'.world.library = m.world.library
  /-- The pending exception is the same. -/
  pending : m'.thread.pending = m.thread.pending

instance : AllowsReports SameHeapPending where
  refl _ := ⟨rfl, rfl, rfl⟩
  trans _ _ _ first second :=
    ⟨second.heap.trans first.heap, second.library.trans first.library,
      second.pending.trans first.pending⟩
  reports _ _ _ := ⟨rfl, rfl, rfl⟩
  remembers _ _ := ⟨rfl, rfl, rfl⟩

theorem SameHeapPending.starved {left : List Entry} {a b c : Machine}
    (sameHeap : a.SameHeapPending b)
    (starved : b.Starved left c) : a.Starved left c := by
  unfold Starved at *
  rwa [← sameHeap.heap]

end Machine

namespace Exec

variable {α β : Type} {x : Exec α} {s : Settings} {m m' : Machine}

/-! ## Computations that leave the heap alone -/

theorem modifyWorld_sameHeap {g : World → World} (heap : ∀ w, (g w).heap = w.heap)
    (library : ∀ w, (g w).library = w.library) : Keeps Machine.SameHeapPending (modifyWorld g) :=
  fun _ m => ⟨heap m.world, library m.world, rfl⟩

theorem push_sameHeap (v : Value) : Keeps Machine.SameHeapPending (push v) :=
  fun _ _ => ⟨rfl, rfl, rfl⟩

theorem onThread_sameHeap {f : Thread → Except Fault (α × Thread)}
    (samePending : Keeps Machine.SamePending (onThread f)) :
    Keeps Machine.SameHeapPending (onThread f) := by
  intro s m
  have world : ((onThread f).after s m).world = m.world := by
    cases run : f m.thread with
    | ok done => rw [after_of_ok (onThread_of_ok (t := done.2) run)]
    | error e => rw [after_of_error (onThread_of_error run)]
  exact ⟨congrArg World.heap world, congrArg World.library world, samePending s m⟩

theorem onFrame_sameHeap (f : Frame → Except Fault (α × Frame)) :
    Keeps Machine.SameHeapPending (onFrame f) :=
  onThread_sameHeap (onFrame_samePending f)

theorem pop_sameHeap : Keeps Machine.SameHeapPending pop :=
  (onThread_sameHeap popOperand_keeps).bind fun _ => .pure _

theorem popInt_sameHeap : Keeps Machine.SameHeapPending popInt :=
  pop_sameHeap.bind fun _ => .ofExcept _

theorem readU8_sameHeap : Keeps Machine.SameHeapPending readU8 :=
  (onFrame_sameHeap _).bind fun _ => .pure _

theorem readClassName_sameHeap : Keeps Machine.SameHeapPending readClassName := by
  refine Keeps.bind ((onFrame_sameHeap _).bind fun _ => .pure _) fun index => ?_
  refine frame_keeps.bind fun f => Keeps.bind (.ofExcept _) fun constant => ?_
  split
  · exact .pure _
  · exact .fail _

/-! ## Computations that are refused memory -/

/-- What a computation has made when it is refused memory. -/
structure Wastes (L : List Entry → Prop) (x : Exec α) : Prop where
  /-- Nothing becomes pending when it has a result. -/
  given : ∀ {s m a m'}, x s m = .ok a m' → m'.thread.pending = m.thread.pending
  /-- What it has made satisfies a condition. -/
  refused : ∀ {s m e m'}, x s m = .error (.fault e) m' → e.isOutOfMemory = true →
    m.world.heap.Arena → ∃ new, L (new.map Prod.snd) ∧ m.world.heap.Extended new m'.world.heap

theorem allocate_sameHeap_of_fault {g : Heap → Except Fault (Handle × Heap)} {e : Fault}
    (h : allocate g s m = .error (.fault e) m') : m.SameHeapPending m' := by
  cases asked : g m.world.heap with
  | ok done => exact nomatch (allocate_of_ok asked).symm.trans h
  | error cause =>
      obtain ⟨events, refusals, run⟩ := allocate_of_error (s := s) asked
      cases run.symm.trans h
      exact ⟨rfl, rfl, rfl⟩

/-- An allocation is made or not. -/
theorem allocate_wastes (g : Heap → Except Fault (Handle × Heap)) :
    Wastes (· = []) (allocate g) where
  given h := by
    obtain ⟨heap, -, rfl⟩ := allocate_ok h
    rfl
  refused h _ arena := ⟨[], rfl, (allocate_sameHeap_of_fault h).heap.symm ▸ .refl arena⟩

theorem newInstance_wastes (cls : LoadedClass) : Wastes (· = []) (newInstance cls false) where
  given h := (allocate_wastes _).given (newInstance_eq cls false ▸ h)
  refused h := (allocate_wastes _).refused (newInstance_eq cls false ▸ h)

theorem newCharacters_sameHeap_of_fault {text : String} {e : Fault}
    (h : newCharacters text s m = .error (.fault e) m') : m.SameHeapPending m' := by
  obtain failed | ⟨chars, mid, made, h⟩ := bind_eq_error h
  · exact allocate_sameHeap_of_fault failed
  · cases h

/-- Of a string the array of its characters may have been made. -/
theorem newString_wastes (text : String) :
    Wastes (fun left => left = [] ∨ left = [.characters text]) (newString text) where
  given h := congrArg Thread.pending ((newString_stirsMemory text).of_ok h).thread
  refused {s m e m'} h short arena := by
    have none {b : Machine} (same : m.SameHeapPending b) :
        ∃ new : List (Handle × Entry), (new.map Prod.snd = [] ∨
          new.map Prod.snd = [.characters text]) ∧ m.world.heap.Extended new b.world.heap :=
      ⟨[], .inl rfl, same.heap.symm ▸ .refl arena⟩
    obtain failed | ⟨cls, a, known, h⟩ := bind_eq_error h
    · exact none ((findClass_keeps _).of_error failed)
    have first : m.SameHeapPending a := (findClass_keeps _).of_ok known
    obtain failed | ⟨field, b, resolved, h⟩ := bind_eq_error h
    · exact none (IsTrans.trans _ _ _ first ((resolveField_keeps _ _).of_error failed))
    have second : m.SameHeapPending b :=
      IsTrans.trans _ _ _ first ((resolveField_keeps _ _).of_ok resolved)
    cases field with
    | none =>
        cases h
        cases short
    | some field =>
        obtain failed | ⟨chars, c, filled, h⟩ := bind_eq_error h
        · exact none (IsTrans.trans _ _ _ second (newCharacters_sameHeap_of_fault failed))
        have made := newCharacters_ok filled (second.heap.symm ▸ arena)
        rw [second.heap] at made
        obtain failed | ⟨string, d, created, h⟩ := bind_eq_error h
        · have same := allocate_sameHeap_of_fault (newInstance_eq cls false ▸ failed)
          exact ⟨_, .inr rfl, same.heap.symm ▸ made⟩
        · -- a field is never refused memory
          obtain failed | ⟨_, last, -, h⟩ := bind_eq_error h
          · exact nomatch short.symm.trans ((setField_frugal _ _ _).fault failed).2
          · cases h

/-! ### Arrays of arrays -/

/-- What a computation has made satisfies a condition, whether it is refused memory or not. -/
structure Piles (R : Entry → Prop) (x : Exec α) : Prop where
  /-- It does so when the computation has a result. -/
  ok : ∀ {s m a m'}, x s m = .ok a m' → m.world.heap.Arena →
    ∃ new, m.world.heap.Extended new m'.world.heap ∧ ∀ p ∈ new, R p.2
  /-- It does so when the computation fails. -/
  fault : ∀ {s m e m'}, x s m = .error (.fault e) m' → m.world.heap.Arena →
    ∃ new, m.world.heap.Extended new m'.world.heap ∧ ∀ p ∈ new, R p.2

namespace Piles

variable {β : Type} {R R' : Entry → Prop} {f : α → Exec β}

theorem mono (hx : Piles R x) (sub : ∀ e, R e → R' e) : Piles R' x where
  ok h arena := by
    obtain ⟨new, extended, all⟩ := hx.ok h arena
    exact ⟨new, extended, fun p listed => sub _ (all p listed)⟩
  fault h arena := by
    obtain ⟨new, extended, all⟩ := hx.fault h arena
    exact ⟨new, extended, fun p listed => sub _ (all p listed)⟩

theorem of_sameHeap (hx : Keeps Machine.SameHeapPending x) : Piles R x where
  ok h arena := ⟨[], (hx.of_ok h).heap.symm ▸ .refl arena, nofun⟩
  fault h arena := ⟨[], (hx.of_error h).heap.symm ▸ .refl arena, nofun⟩

theorem bind (hx : Piles R x) (hf : ∀ a, Piles R (f a)) : Piles R (x >>= f) where
  ok h arena := by
    obtain ⟨a, mid, first, second⟩ := bind_eq_ok h
    obtain ⟨new, extended, all⟩ := hx.ok first arena
    obtain ⟨later, longer, rest⟩ := (hf a).ok second extended.arena
    exact ⟨_, extended.trans longer, List.forall_mem_append.mpr ⟨all, rest⟩⟩
  fault h arena := by
    obtain failed | ⟨a, mid, first, second⟩ := bind_eq_error h
    · exact hx.fault failed arena
    · obtain ⟨new, extended, all⟩ := hx.ok first arena
      obtain ⟨later, longer, rest⟩ := (hf a).fault second extended.arena
      exact ⟨_, extended.trans longer, List.forall_mem_append.mpr ⟨all, rest⟩⟩

theorem allocate {g : Heap → Except Fault (Handle × Heap)} (made : ∀ {h r h'}, g h = .ok (r, h') →
    ∃ e, R e ∧ h.insert e false = .ok (r, h')) : Piles R (allocate g) where
  ok h arena := by
    obtain ⟨heap, done, rfl⟩ := allocate_ok h
    obtain ⟨e, is, inserted⟩ := made done
    exact ⟨_, .insert arena inserted, List.forall_mem_singleton.mpr is⟩
  fault h arena := ⟨[], (allocate_sameHeap_of_fault h).heap.symm ▸ .refl arena, nofun⟩

theorem collectTimes (hx : Piles R x) :
    ∀ (n : Nat) (results : Array α), Piles R (collectTimes x n results)
  | 0, _ => .of_sameHeap (.pure _)
  | n + 1, _ => hx.bind fun _ => hx.collectTimes n _

end Piles

end Exec

/-- An entry is an array of a descriptor without so many of its dimensions. -/
def Entry.IsInner (descriptor : List Char) (k : Nat) : Entry → Prop
  | .array a => a.descriptor = String.ofList (descriptor.drop k)
  | .object .. => False

theorem Entry.IsInner.tail {descriptor : List Char} {k : Nat} {e : Entry}
    (inner : e.IsInner descriptor.tail k) : e.IsInner descriptor (k + 1) := by
  cases e with
  | object => exact inner
  | array a => exact inner.trans (congrArg String.ofList List.drop_tail)

namespace Exec

/-- What is made for the elements of an array are inner arrays of it. -/
theorem Piles.elements {descriptor : List Char} {depth : Nat} {x : Exec α} (hx : Piles (fun e =>
      ∃ k, (k = 0 ∨ k < depth) ∧ e.IsInner descriptor.tail k) x) (deep : 0 < depth) (n : Nat)
    (results : Array α) : Piles (fun e => ∃ k, 0 < k ∧ k < depth + 1 ∧ e.IsInner descriptor k)
      (Exec.collectTimes x n results) := by
  refine (hx.mono ?_).collectTimes n results
  rintro e ⟨k, below, inner⟩
  exact ⟨k + 1, by omega, by omega, inner.tail⟩

theorem multiArray_piles : ∀ (lengths : List Nat) (descriptor : List Char),
    Piles (fun e => ∃ k, (k = 0 ∨ k < lengths.length) ∧ e.IsInner descriptor k)
      (multiArray descriptor lengths)
  | [], _ => .allocate fun done =>
      ⟨.array ⟨_, _, _⟩, ⟨0, .inl rfl, rfl⟩, Heap.allocateArray_ok done⟩
  | [_], _ => .allocate fun done =>
      ⟨.array ⟨_, _, _⟩, ⟨0, .inl rfl, rfl⟩, Heap.allocateArray_ok done⟩
  | length :: next :: lengths, descriptor => by
      have elements := (multiArray_piles (next :: lengths) descriptor.tail).elements
        (Nat.succ_pos _) length #[]
      refine (Piles.of_sameHeap (checkLength_keeps length)).bind fun _ => ?_
      refine (elements.mono ?_).bind fun inner =>
        .allocate fun done => ⟨.array ⟨_, _, _⟩, ⟨0, .inl rfl, rfl⟩, done⟩
      rintro e ⟨k, -, below, inner⟩
      exact ⟨k, .inr below, inner⟩

/-- When an array of several dimensions is refused memory, inner arrays are left. -/
theorem multiArray_wastes (lengths : List Nat) (descriptor : List Char) :
    Wastes (fun left => ∀ e ∈ left, ∃ k, 0 < k ∧ k < lengths.length ∧ e.IsInner descriptor k)
      (multiArray descriptor lengths) where
  given h := congrArg Thread.pending
    ((multiArray_freely lengths descriptor : Keeps Machine.SameThreadClasses _).of_ok h).thread
  refused {s m e m'} h short arena := by
    suffices made : ∃ new, m.world.heap.Extended new m'.world.heap ∧
        ∀ p ∈ new, ∃ k, 0 < k ∧ k < lengths.length ∧ p.2.IsInner descriptor k by
      obtain ⟨new, extended, inner⟩ := made
      exact ⟨new, List.forall_mem_map.mpr inner, extended⟩
    match lengths, h with
    | [], h | [_], h =>
        exact ⟨[], (allocate_sameHeap_of_fault h).heap.symm ▸ .refl arena, nofun⟩
    | length :: next :: lengths, h =>
        have elements := (multiArray_piles (next :: lengths) descriptor.tail).elements
          (Nat.succ_pos _) length #[]
        obtain failed | ⟨_, a, checked, h⟩ := bind_eq_error h
        · have same : m.SameHeapPending m' := (checkLength_keeps length).of_error failed
          exact ⟨[], same.heap.symm ▸ .refl arena, nofun⟩
        have same : m.SameHeapPending a := (checkLength_keeps length).of_ok checked
        rw [← same.heap] at arena ⊢
        obtain failed | ⟨inner, b, collected, h⟩ := bind_eq_error h
        · exact elements.fault failed arena
        · -- the inner arrays are there, and the outer one is not
          rw [(allocate_sameHeap_of_fault h).heap]
          exact elements.ok collected arena

/-! ## Raising the memory error -/

theorem raiseOutOfMemory_starved (h : raiseOutOfMemory s m = .ok () m')
    (arena : m.world.heap.Arena) : m.Starved [] m' := by
  obtain ⟨_, a, told, h⟩ := bind_eq_ok h
  obtain ⟨cls, b, known, h⟩ := bind_eq_ok h
  obtain ⟨r, c, made, h⟩ := bind_eq_ok h
  cases h
  have same : m.SameHeapPending b := IsTrans.trans _ _ _ ((report_keeps _).of_ok told)
    ((findClass_keeps _).of_ok known)
  obtain ⟨heap, inserted, rfl⟩ := allocate_ok (newInstance_eq cls true ▸ made)
  obtain ⟨rfl, found⟩ := findClass_ok known
  have extended := Heap.Extended.insert (same.heap.symm ▸ arena) inserted
  exact same.starved ⟨[], r, _, rfl, extended, Library.name_of_find? found, rfl⟩

/-- A computation is refused memory, and nothing is made. -/
def Refused (x : Exec α) (s : Settings) (m : Machine) : Prop :=
  ∃ e m', x s m = .error (.fault e) m' ∧ e.isOutOfMemory = true ∧ m.SameHeapPending m'

theorem allocate_refused {g : Heap → Except Fault (Handle × Heap)} {e : Fault}
    (refused : g m.world.heap = .error e) (short : e.isOutOfMemory = true) :
    Refused (allocate g) s m := by
  obtain ⟨events, refusals, run⟩ := allocate_of_error (s := s) refused
  exact ⟨e, _, run, short, rfl, rfl, rfl⟩

theorem Refused.bind {f : α → Exec β} (refused : Refused x s m) : Refused (x >>= f) s m := by
  obtain ⟨e, m', run, short, same⟩ := refused
  exact ⟨e, m', bind_of_error run, short, same⟩

/-- What is refused becomes the memory error. -/
theorem orOutOfMemory_refused (refused : Refused x s m) (equipped : m.Equipped)
    (arena : m.world.heap.Arena) : ∃ m', orOutOfMemory x s m = .ok none m' ∧ m.Starved [] m' := by
  obtain ⟨e, mid, run, short, same⟩ := refused
  obtain ⟨m', raised, -⟩ := raiseOutOfMemory_run (s := s) (equipped.of_library same.library)
  refine ⟨m', ?_, same.starved (raiseOutOfMemory_starved raised (same.heap.symm ▸ arena))⟩
  rw [orOutOfMemory, bind_of_ok (attempt_of_fault run)]
  simp only [short, if_true, bind_of_ok raised]
  rfl

/-- A computation answers what was asked for, and nothing has become pending, or it answers nothing,
and if the memory error is pending then, what it has made before satisfies a condition. -/
structure Starves (L : List Entry → Prop) (x : Exec (Option α)) : Prop where
  /-- Nothing becomes pending when it answers something. -/
  given : ∀ {s m a m'}, x s m = .ok (some a) m' → m'.thread.pending = m.thread.pending
  /-- The memory error is new, and what was made before is left. -/
  refused : ∀ {s m m'}, x s m = .ok none m' → m.world.heap.Arena → m'.OutOfMemory →
    ∃ left, L left ∧ m.Starved left m'

/-- What is asked for on behalf of the guest is given, or the memory error is made. -/
theorem orOutOfMemory_starves {L : List Entry → Prop} (hx : Wastes L x) :
    Starves L (orOutOfMemory x) where
  given h := hx.given (orOutOfMemory_some h)
  refused {s m m'} h arena _ := by
    obtain ⟨a, mid, -, run⟩ | ⟨e, mid, missing, run⟩ | ⟨stop, mid, run, -⟩ :=
      orOutOfMemory_cases x s m
    · cases run.symm.trans h
    · rw [run] at h
      split at h
      next short =>
        obtain ⟨_, last, raised, h⟩ := bind_eq_ok h
        cases h
        obtain ⟨new, holds, extended⟩ := hx.refused missing short arena
        have starved := (raiseOutOfMemory_starved raised extended.arena).after extended
        exact ⟨_, holds, by simpa using starved⟩
      · cases h
    · cases run.symm.trans h

/-- An object that is refused has no room, and the memory error is made for it. -/
theorem newInstance_starved {cls : LoadedClass}
    (h : orOutOfMemory (newInstance cls false) s m = .ok none m') (arena : m.world.heap.Arena) :
    ¬ m.world.heap.HasRoom 1 ∧ m.Starved [] m' := by
  refine ⟨fun room => ?_, ?_⟩
  · obtain ⟨r, heap, -, -, made⟩ := newInstance_granted (s := s) (n := 0) room cls false
    rw [orOutOfMemory, bind_of_ok (attempt_of_ok made)] at h
    cases h
  · obtain ⟨r, mid, -, run⟩ | ⟨e, mid, missing, run⟩ | ⟨stop, mid, run, -⟩ :=
      orOutOfMemory_cases (newInstance cls false) s m
    · cases run.symm.trans h
    · have same : m.SameHeapPending mid :=
        allocate_sameHeap_of_fault (newInstance_eq cls false ▸ missing)
      rw [run] at h
      split at h
      · obtain ⟨_, last, raised, h⟩ := bind_eq_ok h
        cases h
        exact same.starved (raiseOutOfMemory_starved raised (same.heap.symm ▸ arena))
      · cases h
    · cases run.symm.trans h

/-- An exception is pending that is of the class that was asked for, or there was no room for it and
the memory error is made. -/
theorem raise_cases {className : String} {message : Option String}
    [raised : Throwable.Raised className] (other : className ≠ Throwable.outOfMemoryError)
    (h : raise className message s m = .ok () m') (arena : m.world.heap.Arena) :
    (¬ m.world.heap.HasRoom 1 ∧ m.Starved [] m') ∨
      m.world.heap.HasRoom 1 ∧ ∃ exception, m'.thread.pending = some exception ∧
        m'.world.heap.typeName (.object exception) = .ok className := by
  rw [raise, if_neg (by simpa using other)] at h
  obtain ⟨_, a, told, h⟩ := bind_eq_ok h
  obtain ⟨cls, b, known, h⟩ := bind_eq_ok h
  obtain ⟨result, c, asked, rest⟩ := bind_eq_ok h
  have same : m.SameHeapPending b := IsTrans.trans _ _ _ ((report_keeps _).of_ok told)
    ((findClass_keeps _).of_ok known)
  have arena : b.world.heap.Arena := same.heap.symm ▸ arena
  cases result with
  | none =>
      cases rest
      obtain ⟨full, starved⟩ := newInstance_starved asked arena
      exact .inl ⟨same.heap ▸ full, same.starved starved⟩
  | some exception =>
      obtain ⟨heap, inserted, rfl⟩ :=
        allocate_ok (newInstance_eq cls false ▸ orOutOfMemory_some asked)
      obtain ⟨rfl, found⟩ := findClass_ok known
      refine .inr ⟨fun capacity bounded => ?_, ?_⟩
      · rw [← same.heap] at bounded ⊢
        exact Heap.insert_within inserted bounded
      have named : heap.typeName (.object exception) = .ok className := by
        have there := (Heap.Extended.insert arena inserted).added _ (List.mem_singleton_self _)
        rw [Heap.typeName, Heap.classOf, Heap.object_eq_ok.mpr there, ← Library.name_of_find? found]
        rfl
      cases message with
      | none =>
          cases rest
          exact ⟨exception, rfl, named⟩
      | some message =>
          obtain ⟨_, mid, attached, pended⟩ := bind_eq_ok rest
          have stirs := (attachMessage_keeps (R := Machine.SameThreadStirsMemory) _ _
            raised).of_ok attached
          cases pended
          exact ⟨exception, rfl, stirs.world.stirs.typeName (arena.insert inserted) named⟩

/-- When the memory error is pending after another exception was raised, there was no memory for
that one. -/
theorem raise_starves {className : String} {message : Option String} [Throwable.Raised className]
    (other : className ≠ Throwable.outOfMemoryError)
    (h : raise className message s m = .ok () m') (arena : m.world.heap.Arena)
    (short : m'.OutOfMemory) : m.Starved [] m' := by
  obtain ⟨-, starved⟩ | ⟨-, exception, pending, named⟩ := raise_cases other h arena
  · exact starved
  · obtain ⟨r, pending', error⟩ := short
    cases pending.symm.trans pending'
    exact absurd (Except.ok.inj (named.symm.trans error)) other

/-- A class is found, or an exception is raised. -/
theorem resolveClass_starves (name : String) : Starves (· = []) (resolveClass name) where
  given h := by
    obtain ⟨rfl, -⟩ := resolveClass_some h
    rfl
  refused {s m m'} h arena short := by
    rw [resolveClass, bind_of_ok library_run] at h
    cases looked : m.world.library.find? name with
    | some cls =>
        simp only [looked] at h
        cases h
    | none =>
        simp only [looked] at h
        obtain ⟨_, last, raised, done⟩ := bind_eq_ok h
        cases done
        exact ⟨[], rfl, raise_starves (by decide) raised arena short⟩

/-- A literal that was met before is known, and another one is made. -/
theorem intern_starves (text : String) :
    Starves (fun left => left = [] ∨ left = [.characters text]) (intern text) where
  given {s m r m'} h := by
    rw [intern, bind_of_ok world_run] at h
    cases known : m.world.interned.lookup text with
    | some r =>
        rw [known] at h
        cases h
        rfl
    | none =>
        rw [known] at h
        obtain ⟨string, mid, asked, rest⟩ := bind_eq_ok h
        cases string with
        | none => cases rest
        | some r =>
            have samePending := (orOutOfMemory_starves (newString_wastes text)).given asked
            cases rest
            exact samePending
  refused {s m m'} h arena short := by
    rw [intern, bind_of_ok world_run] at h
    cases known : m.world.interned.lookup text with
    | some r =>
        rw [known] at h
        cases h
    | none =>
        rw [known] at h
        obtain ⟨string, mid, asked, rest⟩ := bind_eq_ok h
        cases string with
        | none =>
            cases rest
            exact (orOutOfMemory_starves (newString_wastes text)).refused asked arena short
        | some r => cases rest

end Exec

end JavaMachine
