import JavaMachine.Proofs.Leftovers

/-!
# No array is longer than the limit

A heap may have a limit for the lengths of arrays.  The instructions that make arrays look at it:
the length that is asked for is checked before the array is made, and of several dimensions each one
is checked before the arrays inside are made.  A copy is as long as what is copied, and a store or a
copy of elements changes no length.

The characters of a string are put into an array of whatever length they need.  A world counts the
strings that are longer than an array may be.  So all arrays keep to the limit as long as nothing is
counted, and all but those of characters do in any case.
-/

namespace JavaMachine

open Exec
open Relation (ReflTransGen)

/-! ## One change of the memory -/

/-- A heap has a limit for the lengths of arrays, and no array is longer.  The arrays of characters
are meant too, or they are not. -/
structure Heap.Limited (h : Heap) (limit : Nat) (texts : Bool) : Prop where
  /-- The limit is in force. -/
  bound : h.maxArrayLength = some limit
  /-- No array is longer. -/
  arrays : ∀ r a, h.array r = .ok a → (a.descriptor = "[C" → texts = true) →
    a.elements.size ≤ limit

theorem Heap.isTooLong_eq_false {h : Heap} {limit length : Nat}
    (bound : h.maxArrayLength = some limit) : h.isTooLong length = false ↔ length ≤ limit := by
  simp [isTooLong, bound]

namespace World

variable {w w' : World} {limit : Nat} {texts : Bool}

/-- The number of strings that are longer than an array may be, if they are meant. -/
def stretches (texts : Bool) (w : World) : Nat := if texts then w.lapses.stretches else 0

theorem Stir.stretches_le (h : w.Stir w') : w.lapses.stretches ≤ w'.lapses.stretches := by
  cases h with
  | beside _ _ _ _ _ lapses => exact Nat.le_of_eq (congrArg Lapses.stretches lapses.symm)
  | characters => exact Nat.le_add_right _ _
  | _ => exact Nat.le_refl _

/-- A change of the memory keeps all arrays within the limit, unless a string is counted. -/
theorem Stir.limited (h : w.Stir w') (arena : w.heap.Arena) (limited : w.heap.Limited limit texts)
    (unstretched : w'.stretches texts = w.stretches texts) : w'.heap.Limited limit texts := by
  obtain ⟨bound, arrays⟩ := limited
  refine ⟨h.limits.2.trans bound, fun r a there => ?_⟩
  cases h.origin arena there with
  | old found => exact arrays _ a found
  | filled short => simpa using fun _ => (Heap.isTooLong_eq_false bound).mp short
  | @characters elements _ counted =>
      intro meant
      have short : w.heap.isTooLong elements.size = false := by
        simpa [stretches, meant rfl, counted, Lapses.stretch] using unstretched
      exact (Heap.isTooLong_eq_false bound).mp short
  | nested _ _ short => simpa using fun _ => (Heap.isTooLong_eq_false bound).mp short
  | stored found => simpa using arrays _ _ found
  | copied _ written _ size => simpa [size] using arrays _ _ written

/-! ## What guests do -/

/-- Seen from a heap with its books in order, the arrays stayed within the limit, or a string was
counted. -/
abbrev Bounded (limit : Nat) (texts : Bool) : World → World → Prop :=
  Upheld (·.heap.Arena) (·.stretches texts) (·.heap.Limited limit texts)

instance : AllowsStirs (Bounded limit texts) where
  stirs := Stirs.upheld fun stir arena => by
    refine ⟨stir.arena arena, ?_, fun unstretched limited => stir.limited arena limited unstretched⟩
    cases texts with
    | false => exact Nat.le_refl 0
    | true => exact stir.stretches_le

end World

namespace Exec

variable {limit : Nat} {texts : Bool}

theorem setStatic_bounded (f : FieldRef) (v : Value) :
    Keeps (Machine.Seen (World.Bounded limit texts)) (setStatic f v) := by
  intro s m arena
  exact ⟨arena, Nat.le_refl _, fun _ limited => limited⟩

theorem newInstance_bounded (cls : LoadedClass) (reserved : Bool) :
    Keeps (Machine.Seen (World.Bounded limit texts)) (newInstance cls reserved) := by
  refine library_keeps.bind fun lib s m => allocate_allowed fun r heap made arena => ?_
  refine ⟨arena.insert made, Nat.le_refl _, fun _ limited => ?_⟩
  exact ⟨(Heap.insert_limits made).2.trans limited.bound,
    fun r a found => limited.arrays r a ((arena.grown made).old_array found)⟩

end Exec

/-- A guest does a piece of work.  If strings are meant, it makes none that is longer than an array
may be. -/
def World.Unstretched (texts : Bool) (w w' : World) : Prop :=
  w.Guest w' ∧ w'.stretches texts = w.stretches texts

/-- A piece of work keeps the books in order and the arrays within the limit. -/
theorem World.Unstretched.limited {w w' : World} {limit : Nat} {texts : Bool}
    (h : w.Unstretched texts w') (arena : w.heap.Arena) (limited : w.heap.Limited limit texts) :
    w'.heap.Arena ∧ w'.heap.Limited limit texts := by
  obtain ⟨guest, unstretched⟩ := h
  obtain bounded | ⟨-, -, heap, -, -⟩ := guest.keeps_or_beside
    (fun hr => putStaticField_seen hr setStatic_bounded)
    fun hr => newObject_seen hr fun cls => newInstance_bounded cls false
  · exact ⟨(bounded arena).ordered, (bounded arena).kept unstretched limited⟩
  · exact heap ▸ ⟨arena, limited⟩

/-! ## Requests for longer arrays -/

/-- A machine can answer a request for an array that is too long: the books of its heap are in
order, and it has a limit and the memory error. -/
structure Machine.Ruled (m : Machine) (limit : Nat) : Prop where
  /-- The library has the memory error. -/
  equipped : m.Equipped
  /-- The books of the heap are in order. -/
  arena : m.world.heap.Arena
  /-- The limit is in force. -/
  bound : m.world.heap.maxArrayLength = some limit

theorem Machine.Ruled.after {m m' : Machine} {limit : Nat} (ruled : m.Ruled limit)
    (same : m.SameHeapPending m') : m'.Ruled limit where
  equipped := ruled.equipped.of_library same.library
  arena := same.heap.symm ▸ ruled.arena
  bound := same.heap.symm ▸ ruled.bound

/-- Of the lengths of an array of several dimensions one is above the limit, and it is reached: no
length before it is zero. -/
inductive Overlong (limit : Nat) : List Nat → Prop
  /-- The outer array is too long. -/
  | outer {length : Nat} {lengths : List Nat} (long : limit < length) :
      Overlong limit (length :: lengths)
  /-- The inner arrays are too long, and there are some. -/
  | inner {length : Nat} {lengths : List Nat} (some : 0 < length) (long : Overlong limit lengths) :
      Overlong limit (length :: lengths)

namespace Exec

variable {α β : Type} {s : Settings} {m : Machine} {limit : Nat}

theorem checkLength_cases (length : Nat) (s : Settings) (m : Machine) :
    checkLength length s m = .ok () m ∨ Refused (checkLength length) s m := by
  rw [Refused, checkLength, bind_of_ok heap_run]
  unfold Heap.checkLength
  split
  · obtain ⟨events, refusals, run⟩ := reportRefusal_fail (s := s) (m := m)
    exact .inr ⟨_, _, run, rfl, rfl, rfl, rfl⟩
  · exact .inl rfl

theorem checkLength_refused {length : Nat} (bound : m.world.heap.maxArrayLength = some limit)
    (long : limit < length) : Refused (checkLength length) s m := by
  refine (checkLength_cases length s m).resolve_left fun checked => ?_
  have short := (Heap.isTooLong_eq_false bound).mp (checkLength_ok checked).2
  omega

theorem allocateArray_refused {kind : ElementKind} {descriptor : String} {length : Nat}
    (bound : m.world.heap.maxArrayLength = some limit) (long : limit < length) :
    Refused (allocate (·.allocateArray kind descriptor length)) s m := by
  have tooLong : m.world.heap.isTooLong length = true := by
    simpa [Heap.isTooLong, bound] using long
  refine allocate_refused (e := .arrayAllocation length) ?_ rfl
  rw [Heap.allocateArray, Heap.checkLength, tooLong]
  rfl

/-- An array that is too long in a dimension is refused before anything is made. -/
theorem multiArray_refused {lengths : List Nat} (overlong : Overlong limit lengths)
    (bound : m.world.heap.maxArrayLength = some limit) :
    ∀ descriptor, Refused (multiArray descriptor lengths) s m := by
  induction overlong with
  | @outer length lengths long =>
      intro descriptor
      cases lengths with
      | nil => exact allocateArray_refused bound long
      | cons next lengths => exact (checkLength_refused bound long).bind
  | @inner length lengths some long ih =>
      intro descriptor
      obtain ⟨n, rfl⟩ := Nat.exists_eq_add_one.mpr some
      cases lengths with
      | nil => cases long
      | cons next lengths =>
          obtain checked | refused := checkLength_cases (n + 1) s m
          · rw [Refused, multiArray, bind_of_ok checked]
            · exact (ih descriptor.tail).bind.bind
            · exact List.cons_ne_nil _ _
          · exact refused.bind

theorem pushNewArray_refused {kind : ElementKind} {descriptor : String} {count : Int32}
    (ruled : m.Ruled limit) (long : limit < count.toInt) :
    ∃ m', pushNewArray kind descriptor count s m = .ok () m' ∧ m.Starved [] m' := by
  have natural : ¬ count < 0 := by
    rw [Int32.lt_iff_toInt_lt, Int32.toInt_zero]
    omega
  have refused : Refused (allocate (·.allocateArray kind descriptor count.toInt.toNat)) s m :=
    allocateArray_refused ruled.bound (by omega)
  obtain ⟨m', answered, starved⟩ := orOutOfMemory_refused refused ruled.equipped ruled.arena
  refine ⟨m', ?_, starved⟩
  rw [pushNewArray, if_neg natural]
  exact bind_of_ok answered

end Exec

/-- An operation is in front of operands that ask for an array that is longer than a limit. -/
inductive Request.Overasks (limit : Nat) (s : Settings) (m : Machine) : Request → Prop
  /-- Of elements of a primitive type. -/
  | elements {code : UInt8} {kind : ElementKind} {count : Int32} {a b : Machine}
      (read : readU8 s m = .ok code a) (known : ElementKind.ofCode? code = some kind)
      (popped : popInt s a = .ok count b) (long : limit < count.toInt) : Overasks limit s m elements
  /-- Of references to arrays or to objects of a class of the library. -/
  | references {name : String} {count : Int32} {a b : Machine}
      (read : readClassName s m = .ok name a) (popped : popInt s a = .ok count b)
      (known : name.startsWith "[" = true ∨ (m.world.library.find? name).isSome)
      (long : limit < count.toInt) : Overasks limit s m references
  /-- Of arrays. -/
  | dimensions {descriptor : String} {count : UInt8} {counts : Array Int32} {a b c : Machine}
      (read : readClassName s m = .ok descriptor a) (counted : readU8 s a = .ok count b)
      (within : 0 < count.toNat ∧
        count.toNat ≤ (descriptor.toList.takeWhile (· == '[')).length)
      (popped : collectTimes popInt count.toNat #[] s b = .ok counts c)
      (natural : ∀ n ∈ counts, 0 ≤ n)
      (long : Overlong limit (counts.toList.reverse.map (·.toInt.toNat))) :
      Overasks limit s m dimensions

/-- Such an operation becomes the memory error, and nothing else is made. -/
theorem Request.Overasks.starved {limit : Nat} {s : Settings} {m : Machine} {q : Request}
    (overasks : q.Overasks limit s m) (ruled : m.Ruled limit) (host : Host) :
    ∃ m', q.run host s m = .ok () m' ∧ m.Starved [] m' := by
  cases overasks with
  | @elements code kind count a b read known popped long =>
      have same := IsTrans.trans _ _ _ (readU8_sameHeap.of_ok read) (popInt_sameHeap.of_ok popped)
      obtain ⟨m', run, starved⟩ := pushNewArray_refused (ruled.after same) long
      refine ⟨m', ?_, same.starved starved⟩
      rw [Request.run, newArray, bind_of_ok read]
      simp only [known, bind_of_ok popped]
      exact run
  | @references name count a b read popped known long =>
      have same := IsTrans.trans _ _ _ (readClassName_sameHeap.of_ok read)
        (popInt_sameHeap.of_ok popped)
      rw [Request.run, newReferenceArray, bind_of_ok read, bind_of_ok popped]
      split
      · obtain ⟨m', run, starved⟩ := pushNewArray_refused (ruled.after same) long
        exact ⟨m', run, same.starved starved⟩
      next other =>
        obtain ⟨cls, found⟩ := Option.isSome_iff_exists.mp (known.resolve_left other)
        have resolved : resolveClass name s b = .ok (some cls) b := by
          rw [resolveClass, bind_of_ok library_run, same.library, found]
          rfl
        obtain ⟨m', run, starved⟩ := pushNewArray_refused (ruled.after same) long
        rw [bind_of_ok resolved]
        exact ⟨m', run, same.starved starved⟩
  | @dimensions descriptor count counts a b c read counted within popped natural long =>
      have same := IsTrans.trans _ _ _ (readClassName_sameHeap.of_ok read)
        (IsTrans.trans _ _ _ (readU8_sameHeap.of_ok counted)
          ((popInt_sameHeap.collectTimes _ _).of_ok popped))
      have ruled := ruled.after same
      obtain ⟨m', answered, starved⟩ := orOutOfMemory_refused (s := s)
        (multiArray_refused long ruled.bound descriptor.toList) ruled.equipped ruled.arena
      refine ⟨m', ?_, same.starved starved⟩
      have none_negative : counts.toList.reverse.find? (· < 0) = none := by
        refine List.find?_eq_none.mpr fun n listed => ?_
        simpa using natural n (by simpa using listed)
      have possible : ¬(count.toNat = 0 ∨
          (descriptor.toList.takeWhile (· == '[')).length < count.toNat) := by omega
      rw [Request.run, newMultiArray, bind_of_ok read, bind_of_ok counted]
      simp only [if_neg possible, bind_of_ok popped, none_negative, bind_of_ok answered]
      rfl

namespace Sample

/-- A world with a limit of two elements. -/
def capped : World :=
  { library := ⟨[memoryError, string]⟩
    classStates := #[memoryError.freshState, { statics := #[] }]
    heap := { maxArrayLength := some 2 } }

/-- A thread that makes an array of so many ints. -/
def asking (count : Int32) (pc : Nat) : Thread :=
  { id := 0, frames := [{ frame [0xbc, 0x0a, 0xb1] [] 0 with pc }], operands := #[⟨.int count, 0⟩]
    depths := [1], deepest := 1, level := 1 }

/-- A thread in front of a literal. -/
def spelling : Thread :=
  { asking 0 0 with
    frames := [{ frame [0x12, 0x01, 0xb1] [] 0 with
      cls := { cls with pool := #[.empty, .string "abc"] } }] }

/-- How long the first array is that a step has made, if no exception is pending. -/
def measured (t : Thread) : Option Nat :=
  let m := (step (Engine.host coreNatives 1)).after {} ⟨capped, t⟩
  if m.thread.pending.isSome then none
  else (m.world.heap.array ⟨0⟩).toOption.map (·.elements.size)

theorem capped_limited : capped.heap.Limited 2 true := ⟨rfl, nofun⟩

theorem measured_asking : measured (asking 2 0) = some 2 := by decide +kernel

theorem measured_spelling : measured spelling = some 3 := by decide +kernel

theorem array_of_measured {t : Thread} {n : Nat} (seen : measured t = some n) :
    ∃ a, ((step (Engine.host coreNatives 1)).after {} ⟨capped, t⟩).world.heap.array ⟨0⟩ = .ok a ∧
      a.elements.size = n := by
  unfold measured at seen
  dsimp only at seen
  split at seen
  · cases seen
  · generalize (step (Engine.host coreNatives 1)).after {} ⟨capped, t⟩ = m at seen ⊢
    cases found : m.world.heap.array ⟨0⟩ with
    | error e =>
        rw [found] at seen
        cases seen
    | ok a =>
        rw [found] at seen
        exact ⟨a, rfl, Option.some.inj seen⟩

end Sample

/-- No array is longer than the limit.  If the heap has a limit and no array is longer, then after
anything that guests do this is so again, unless a string was made that is longer; the arrays of
characters apart it is so in any case.  And an operation that is asked for a longer array ends with
the memory error pending, and makes nothing else. -/
theorem lengths_limited {w w' : World} {limit : Nat} {texts : Bool} (arena : w.heap.Arena)
    (limited : w.heap.Limited limit texts) (work : ReflTransGen (World.Unstretched texts) w w') :
    w'.heap.Limited limit texts ∧
    ∀ (s : Settings) (t : Thread) (host : Host) (q : Request), Machine.Equipped ⟨w', t⟩ →
      q.Overasks limit s ⟨w', t⟩ →
      ∃ m', q.run host s ⟨w', t⟩ = .ok () m' ∧ m'.OutOfMemory ∧ Machine.Starved [] ⟨w', t⟩ m' := by
  obtain ⟨arena', limited'⟩ : w'.heap.Arena ∧ w'.heap.Limited limit texts := by
    induction work with
    | refl => exact ⟨arena, limited⟩
    | tail _ last ih => exact last.limited ih.1 ih.2
  refine ⟨limited', fun s t host q equipped overasks => ?_⟩
  obtain ⟨m', run, starved⟩ := overasks.starved ⟨equipped, arena', limited'.bound⟩ host
  exact ⟨m', run, starved.outOfMemory, starved⟩

/-- After an array of two ints was made, one of three is refused. -/
theorem lengths_limited_three :
    let w := ((step (Engine.host coreNatives 1)).after {} ⟨Sample.capped, Sample.asking 2 0⟩).world
    w.heap.Limited 2 true ∧ (∃ a, w.heap.array ⟨0⟩ = .ok a ∧ a.elements.size = 2) ∧
    ∃ m', newArray {} ⟨w, Sample.asking 3 1⟩ = .ok () m' ∧ m'.OutOfMemory := by
  intro w
  have unstretched : w.stretches true = Sample.capped.stretches true := by rfl
  have equipped : Machine.Equipped ⟨w, Sample.asking 3 1⟩ := by rfl
  have overasks : Request.elements.Overasks 2 {} ⟨w, Sample.asking 3 1⟩ :=
    .elements rfl rfl rfl (by decide)
  obtain ⟨limited, refuses⟩ := lengths_limited (.blank none (some 2)) Sample.capped_limited
    (.single ⟨.instruction (Sample.asking 2 0) {} 1, unstretched⟩)
  obtain ⟨m', run, short, -⟩ :=
    refuses {} (Sample.asking 3 1) (Engine.host coreNatives 1) .elements equipped overasks
  exact ⟨limited, Sample.array_of_measured Sample.measured_asking, m', run, short⟩

/-- The characters of a literal of three are made into an array, although the limit is two. -/
theorem lengths_exceeded :
    let w := ((step (Engine.host coreNatives 1)).after {} ⟨Sample.capped, Sample.spelling⟩).world
    Sample.capped.heap.Arena ∧ Sample.capped.heap.Limited 2 true ∧ Sample.capped.Guest w ∧
    ¬ w.heap.Limited 2 true := by
  refine ⟨.blank none (some 2), Sample.capped_limited, .instruction Sample.spelling {} 1, ?_⟩
  obtain ⟨a, found, size⟩ := Sample.array_of_measured Sample.measured_spelling
  intro limited
  have short := limited.arrays ⟨0⟩ a found fun _ => rfl
  omega

end JavaMachine
