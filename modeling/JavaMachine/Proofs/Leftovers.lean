import JavaMachine.Proofs.Shortage

/-!
# What is left when memory runs out

An operation that makes objects and arrays for the guest may be refused memory.  It ends with the
memory error pending then.  Nothing that was there is touched, but nothing is taken back either:
what the operation had made before the refusal stays in the heap until the collector finds it.

For most operations that is nothing, since they make one entry and are refused it or not.  A string
is made in two steps, and the array of its characters may be left.  Of an array with several
dimensions inner arrays may be left, and the initialiser of a class may have made anything at all.
-/

namespace JavaMachine

open Exec

namespace Exec

variable {α : Type} {x : Exec α} {s : Settings} {m m' : Machine} {cls : LoadedClass}

/-! ## Operations that make objects and arrays -/

/-- When the memory error has become pending, what a computation has made before satisfies a
condition. -/
structure Strands (L : List Entry → Prop) (x : Exec α) : Prop where
  /-- The error is new, unless it was pending before. -/
  left : ∀ {s m a m'}, x s m = .ok a m' → m.world.heap.Arena → m'.OutOfMemory →
    m'.thread.pending = m.thread.pending ∨ ∃ left, L left ∧ m.Starved left m'

/-- What was asked for is given, and what is done with it raises nothing, or it is refused. -/
theorem Starves.left {β : Type} {L : List Entry → Prop} {x : Exec (Option α)}
    {f : Option α → Exec β} {b c : β} (hx : Starves L x) (h : (x >>= f) s m = .ok c m')
    (given : ∀ a, Keeps Machine.SameHeapPending (f (some a))) (gives_up : f none = pure b)
    (arena : m.world.heap.Arena) (short : m'.OutOfMemory) :
    m'.thread.pending = m.thread.pending ∨ ∃ left, L left ∧ m.Starved left m' := by
  obtain ⟨result, mid, asked, rest⟩ := bind_eq_ok h
  cases result with
  | some a => exact .inl (((given a).of_ok rest).pending.trans (hx.given asked))
  | none =>
      rw [gives_up] at rest
      cases rest
      exact .inr (hx.refused asked arena short)

namespace Strands

variable {β : Type} {L : List Entry → Prop}

theorem of_sameHeap (hx : Keeps Machine.SameHeapPending x) : Strands L x where
  left h _ _ := .inl (hx.of_ok h).pending

theorem after {f : α → Exec β} (hx : Keeps Machine.SameHeapPending x) (hf : ∀ a, Strands L (f a)) :
    Strands L (x >>= f) where
  left h arena short := by
    obtain ⟨b, mid, first, second⟩ := bind_eq_ok h
    have same := hx.of_ok first
    obtain pending | ⟨left, holds, starved⟩ := (hf b).left second (same.heap.symm ▸ arena) short
    · exact .inl (pending.trans same.pending)
    · exact .inr ⟨left, holds, same.starved starved⟩

theorem raise {className : String} {message : Option String} [Throwable.Raised className]
    (other : className ≠ Throwable.outOfMemoryError) (nothing : L []) :
    Strands L (raise className message) where
  left h arena short := .inr ⟨[], nothing, raise_starves other h arena short⟩

theorem request {x : Exec (Option α)} {f : Option α → Exec β} {b : β} (hx : Starves L x)
    (given : ∀ a, Keeps Machine.SameHeapPending (f (some a))) (gives_up : f none = pure b) :
    Strands L (x >>= f) where
  left h := hx.left h given gives_up

theorem resolve {f : Option LoadedClass → Exec β} {b : β} {name : String} (nothing : L [])
    (found : ∀ cls, Strands L (f (some cls))) (gives_up : f none = pure b) :
    Strands L (resolveClass name >>= f) where
  left {s m a m'} h arena short := by
    obtain ⟨result, mid, resolved, rest⟩ := bind_eq_ok h
    cases result with
    | some cls =>
        obtain ⟨rfl, -⟩ := resolveClass_some resolved
        exact (found cls).left rest arena short
    | none =>
        rw [gives_up] at rest
        cases rest
        obtain ⟨left, rfl, starved⟩ := (resolveClass_starves name).refused resolved arena short
        exact .inr ⟨[], nothing, starved⟩

end Strands

theorem pushNewArray_strands (kind : ElementKind) (descriptor : String) (count : Int32) :
    Strands (· = []) (pushNewArray kind descriptor count) := by
  unfold pushNewArray
  split
  · exact .raise (by decide) rfl
  · exact .request (orOutOfMemory_starves (allocate_wastes _)) (fun _ => push_sameHeap _) rfl

theorem newArray_strands : Strands (· = []) newArray := by
  refine .after readU8_sameHeap fun code => ?_
  split
  · exact .of_sameHeap (.fail _)
  · exact .after popInt_sameHeap fun count => pushNewArray_strands _ _ count

theorem newReferenceArray_strands : Strands (· = []) newReferenceArray := by
  refine .after readClassName_sameHeap fun name => .after popInt_sameHeap fun count => ?_
  split
  · exact pushNewArray_strands _ _ count
  · exact .resolve rfl (fun cls => pushNewArray_strands _ _ count) rfl

theorem invokeOnArray_strands (h : Handle) (ref : MemberRef) :
    Strands (· = []) (invokeOnArray h ref) := by
  unfold invokeOnArray
  dsimp only
  split
  · refine .after (pop_sameHeap.bind fun _ => .pure _) fun _ => ?_
    exact .request (orOutOfMemory_starves (allocate_wastes _)) (fun _ => push_sameHeap _) rfl
  · exact .of_sameHeap (.fail _)

theorem newMultiArray_left {descriptor : String} {count : UInt8} {s : Settings}
    {m a b m' : Machine} (named : readClassName s m = .ok descriptor a)
    (counted : readU8 s a = .ok count b) (h : newMultiArray s m = .ok () m')
    (arena : m.world.heap.Arena) (short : m'.OutOfMemory) :
    m'.thread.pending = m.thread.pending ∨ ∃ left, (∀ e ∈ left, ∃ k, 0 < k ∧ k < count.toNat ∧
      e.IsInner descriptor.toList k) ∧ m.Starved left m' := by
  have same : m.SameHeapPending b :=
    IsTrans.trans _ _ _ (readClassName_sameHeap.of_ok named) (readU8_sameHeap.of_ok counted)
  rw [newMultiArray, bind_of_ok named, bind_of_ok counted] at h
  dsimp only at h
  split at h
  · cases h
  · obtain ⟨counts, c, popped, rest⟩ := bind_eq_ok h
    have before := IsTrans.trans _ _ _ same ((popInt_sameHeap.collectTimes _ _).of_ok popped)
    have arena : c.world.heap.Arena := before.heap.symm ▸ arena
    cases negative : counts.toList.reverse.find? (· < 0) with
    | some count =>
        simp only [negative] at rest
        exact .inr ⟨[], nofun, before.starved (raise_starves (by decide) rest arena short)⟩
    | none =>
        simp only [negative] at rest
        obtain pending | ⟨left, inner, starved⟩ := (orOutOfMemory_starves
          (multiArray_wastes _ _)).left rest (fun _ => push_sameHeap _) rfl arena short
        · exact .inl (pending.trans before.pending)
        · have size := collectTimes_size popped
          simp only [List.length_map, List.length_reverse, Array.length_toList, size,
            Array.size_empty, Nat.zero_add] at inner
          exact .inr ⟨left, inner, before.starved starved⟩

/-- Of a constant only a string is made. -/
theorem loadConstant_left {index : UInt16} {s : Settings} {m m' : Machine}
    (h : loadConstant index s m = .ok () m') (arena : m.world.heap.Arena)
    (short : m'.OutOfMemory) : m'.thread.pending = m.thread.pending ∨
      ∃ left, (left = [] ∨ ∃ f text, m.thread.frame = .ok f ∧
        f.cls.pool.entry index = .ok (.string text) ∧ left = [.characters text]) ∧
        m.Starved left m' := by
  obtain ⟨f, a, taken, rest⟩ := bind_eq_ok h
  obtain ⟨current, rfl⟩ := ofExcept_eq_ok (r := m.thread.frame) taken
  obtain ⟨constant, b, read, rest⟩ := bind_eq_ok rest
  obtain ⟨entry, rfl⟩ := ofExcept_eq_ok read
  cases constant with
  | int v => exact .inl ((push_sameHeap _).of_ok rest).pending
  | float v => exact .inl ((push_sameHeap _).of_ok rest).pending
  | string text =>
      obtain pending | ⟨left, made, starved⟩ :=
        (intern_starves text).left rest (fun _ => push_sameHeap _) rfl arena short
      · exact .inl pending
      · exact .inr ⟨left, made.imp_right fun all => ⟨f, text, current, entry, all⟩, starved⟩
  | className name =>
      obtain pending | ⟨left, made, starved⟩ :=
        (resolveClass_starves name).left rest (fun _ => push_sameHeap _) rfl arena short
      · exact .inl pending
      · exact .inr ⟨left, .inl made, starved⟩
  | _ => cases rest

theorem getName_left {s : Settings} {m m' : Machine} (h : getName s m = .ok () m')
    (arena : m.world.heap.Arena) (short : m'.OutOfMemory) :
    m'.thread.pending = m.thread.pending ∨ ∃ left, (left = [] ∨ ∃ c a,
      pop s m = .ok (.classRef c) a ∧ left = [.characters (dottedName c)]) ∧ m.Starved left m' := by
  obtain ⟨v, a, popped, rest⟩ := bind_eq_ok h
  have before := pop_sameHeap.of_ok popped
  have arena : a.world.heap.Arena := before.heap.symm ▸ arena
  cases v with
  | classRef c =>
      obtain pending | ⟨left, made, starved⟩ := (orOutOfMemory_starves
        (newString_wastes _)).left rest (fun _ => push_sameHeap _) rfl arena short
      · exact .inl (pending.trans before.pending)
      · refine .inr ⟨left, ?_, before.starved starved⟩
        exact made.imp_right fun all => ⟨c, a, popped, all⟩
  | null =>
      exact .inr ⟨[], .inl rfl, before.starved (raise_starves (by decide) rest arena short)⟩
  | _ => cases rest

/-! ### New objects -/

/-- An object is made of a class that is noted to be in use, and nothing is left of it. -/
theorem instantiate_left {f : Option Handle → Exec Unit} {c : Unit} (h : (useClass cls.id >>=
      fun _ => orOutOfMemory (newInstance cls false) >>= f) s m = .ok () m')
    (given : ∀ r, Keeps Machine.SameHeapPending (f (some r))) (gives_up : f none = pure c)
    (arena : m.world.heap.Arena) (short : m'.OutOfMemory) :
    m'.thread.pending = m.thread.pending ∨ ∃ left, left = [] ∧ m.Starved left m' := by
  have noted : Keeps Machine.SameHeapPending (useClass cls.id) := fun _ _ => ⟨rfl, rfl, rfl⟩
  have making := orOutOfMemory_starves (newInstance_wastes cls)
  obtain ⟨_, mid, used, rest⟩ := bind_eq_ok h
  have same := noted.of_ok used
  obtain pending | ⟨left, nothing, starved⟩ :=
    making.left rest given gives_up (same.heap.symm ▸ arena) short
  · exact .inl (pending.trans same.pending)
  · exact .inr ⟨left, nothing, same.starved starved⟩

/-- A class that somebody has claimed can be used or not, and nothing else is done. -/
theorem ensureInitialised_claimed {host : Host} {cls : LoadedClass} {ready : Bool} {s : Settings}
    {m m' : Machine} (claimed : m.world.initState cls.id ≠ .uninitialised)
    (h : ensureInitialised host cls s m = .ok ready m') : ready = true ∧ m' = m ∨
      ready = false ∧ ∃ message, raise Throwable.noClassDefFoundError message s m = .ok () m' := by
  rw [ensureInitialised, bind_of_ok library_run, ensureInitialisedWithin] at h
  obtain ⟨action, a, begun, rest⟩ := bind_eq_ok h
  rw [beginInitialisation, bind_of_ok thread_run, bind_of_ok (initState_run _)] at begun
  cases state : m.world.initState cls.id with
  | uninitialised => exact absurd state claimed
  | initialising owner =>
      rw [state] at begun
      dsimp only at begun
      split at begun
      · cases begun
        cases rest
        exact .inl ⟨rfl, rfl⟩
      · cases begun
  | initialised =>
      rw [state] at begun
      cases begun
      cases rest
      exact .inl ⟨rfl, rfl⟩
  | erroneous =>
      rw [state] at begun
      cases begun
      obtain ⟨_, last, raised, rest⟩ := bind_eq_ok rest
      cases rest
      exact .inr ⟨rfl, _, raised⟩

end Exec

/-! ## What is left of an operation -/

/-- The operations that make objects and arrays for the guest. -/
inductive Request where
  /-- Make an object. -/
  | object
  /-- Make an array of elements of a primitive type. -/
  | elements
  /-- Make an array of references. -/
  | references
  /-- Make an array of several dimensions. -/
  | dimensions
  /-- Load the constant at a place of the pool. -/
  | constant (index : UInt16)
  /-- Call the method of an array that a reference names. -/
  | copy (source : Handle) (ref : MemberRef)
  /-- Name a class. -/
  | className

namespace Request

/-- The computation of an operation. -/
def run (host : Host) : Request → Exec Unit
  | object => newObject host
  | elements => newArray
  | references => newReferenceArray
  | dimensions => newMultiArray
  | constant index => loadConstant index
  | copy source ref => invokeOnArray source ref
  | className => getName

/-- What an operation may have made itself when it is refused memory: nothing, the characters of a
string, or inner arrays of an array with several dimensions. -/
def Wastes (s : Settings) (m : Machine) (left : List Entry) : Request → Prop
  | object | elements | references | copy _ _ => left = []
  | dimensions => ∃ descriptor count a b, readClassName s m = .ok descriptor a ∧
      readU8 s a = .ok count b ∧
      ∀ e ∈ left, ∃ k, 0 < k ∧ k < count.toNat ∧ e.IsInner descriptor.toList k
  | constant index => left = [] ∨ ∃ f text, m.thread.frame = .ok f ∧
      f.cls.pool.entry index = .ok (.string text) ∧ left = [.characters text]
  | className => left = [] ∨ ∃ c a, pop s m = .ok (.classRef c) a ∧
      left = [.characters (dottedName c)]

/-- How an operation ends in the memory error. -/
inductive Ends (host : Host) (s : Settings) (m m' : Machine) : Request → Prop
  /-- It was refused memory: what it had made itself is left, and the error is new. -/
  | refused {q : Request} {left : List Entry} (wastes : q.Wastes s m left)
      (starved : m.Starved left m') : Ends host s m m' q
  /-- An object was to be made of a class that nobody had claimed.  Memory was refused after the
  class had been brought into use, and the error is all that is new since. -/
  | used {name : String} {cls : LoadedClass} {a b : Machine}
      (named : readClassName s m = .ok name a) (found : m.world.library.find? name = some cls)
      (unclaimed : m.world.initState cls.id = .uninitialised)
      (begun : ensureInitialised host cls s a = .ok true b) (starved : b.Starved [] m') :
      Ends host s m m' object
  /-- An object was to be made of a class that nobody had claimed, and the error became pending
  while the class was brought into use. -/
  | unused {name : String} {cls : LoadedClass} {a b : Machine} {ready : Bool}
      (named : readClassName s m = .ok name a) (found : m.world.library.find? name = some cls)
      (unclaimed : m.world.initState cls.id = .uninitialised)
      (begun : ensureInitialised host cls s a = .ok ready b)
      (pending : b.thread.pending = m'.thread.pending) : Ends host s m m' object

end Request

namespace Engine

variable {budget : Nat} {s : Settings} {m m' : Machine}

/-- Bringing a class into use keeps the books of the heap in order. -/
theorem ensureInitialised_arena {cls : LoadedClass} {ready : Bool}
    (h : ensureInitialised (host coreNatives budget) cls s m = .ok ready m')
    (arena : m.world.heap.Arena) : m'.world.heap.Arena := by
  have calls : (reentry coreNatives budget).Goes (.seeing World.Sorted) :=
    reentry_seen (fun hr => putStaticField_seen hr setStatic_sorted)
      (fun hr => newObject_seen hr fun cls => newInstance_sorted cls false)
      (fun _ => coreNatives_abide _) budget
  have sorted := (ensureInitialised_seen (W := World.Sorted) calls cls).of_ok h
  exact (sorted arena).ordered

theorem newObject_ends (h : newObject (host coreNatives budget) s m = .ok () m')
    (arena : m.world.heap.Arena) (short : m'.OutOfMemory) :
    m'.thread.pending = m.thread.pending ∨
      Request.object.Ends (host coreNatives budget) s m m' := by
  obtain ⟨name, a, named, h₁⟩ := bind_eq_ok h
  have same := readClassName_sameHeap.of_ok named
  have books : a.world.heap.Arena := same.heap.symm ▸ arena
  obtain ⟨found, b, resolved, h₂⟩ := bind_eq_ok h₁
  cases found with
  | none =>
      cases h₂
      obtain ⟨left, rfl, starved⟩ := (resolveClass_starves name).refused resolved books short
      exact .inr (.refused rfl (same.starved starved))
  | some cls =>
      obtain ⟨rfl, found⟩ := resolveClass_some resolved
      rw [same.library] at found
      dsimp only at h₂
      split at h₂
      · exact .inr (.refused rfl (same.starved (raise_starves (by decide) h₂ books short)))
      obtain ⟨ready, c, begun, h₃⟩ := bind_eq_ok h₂
      by_cases unclaimed : m.world.initState cls.id = .uninitialised
      · cases ready with
        | false =>
            cases h₃
            exact .inr (.unused named found unclaimed begun rfl)
        | true =>
            obtain pending | ⟨left, rfl, starved⟩ :=
              instantiate_left h₃ (fun _ => push_sameHeap _) rfl
                (ensureInitialised_arena begun books)
                short
            · exact .inr (.unused named found unclaimed begun pending.symm)
            · exact .inr (.used named found unclaimed begun starved)
      · rw [← ((readClassName_keeps (R := Machine.Core)).of_ok named).world.inits] at unclaimed
        obtain ⟨rfl, rfl⟩ | ⟨rfl, message, raised⟩ := ensureInitialised_claimed unclaimed begun
        · obtain pending | ⟨left, rfl, starved⟩ :=
            instantiate_left h₃ (fun _ => push_sameHeap _) rfl books short
          · exact .inl (pending.trans same.pending)
          · exact .inr (.refused rfl (same.starved starved))
        · cases h₃
          exact .inr (.refused rfl (same.starved (raise_starves (by decide) raised books short)))

/-- What is left when memory runs out.

Let an operation that makes objects or arrays for the guest end with the memory error pending, which
was not pending before.  Then all entries that were there are what they were, and the error is new.
What else is new was made by the operation before memory was refused: nothing if it makes a single
entry, the characters of a string, or inner arrays of an array with several dimensions.  The methods
that bring a class into use, if it was not in use before, may have done anything. -/
theorem request_ends (arena : m.world.heap.Arena) (clear : m.thread.pending = none) (q : Request)
    (h : q.run (host coreNatives budget) s m = .ok () m') (short : m'.OutOfMemory) :
    q.Ends (host coreNatives budget) s m m' := by
  suffices ends : m'.thread.pending = m.thread.pending ∨ q.Ends (host coreNatives budget) s m m' by
    refine ends.resolve_left fun same => ?_
    obtain ⟨r, pending, -⟩ := short
    exact nomatch (same.trans clear).symm.trans pending
  have refused {L : List Entry → Prop} (wastes : ∀ left, L left → q.Wastes s m left)
      (left : m'.thread.pending = m.thread.pending ∨ ∃ left, L left ∧ m.Starved left m') :
      m'.thread.pending = m.thread.pending ∨ q.Ends (host coreNatives budget) s m m' :=
    left.imp_right fun ⟨left, holds, starved⟩ => .refused (wastes left holds) starved
  cases q with
  | object => exact newObject_ends h arena short
  | elements => exact refused (fun _ => id) (newArray_strands.left h arena short)
  | references => exact refused (fun _ => id) (newReferenceArray_strands.left h arena short)
  | dimensions =>
      obtain ⟨descriptor, a, named, h₁⟩ := bind_eq_ok h
      obtain ⟨count, b, counted, h₂⟩ := bind_eq_ok h₁
      refine refused (fun left inner => ?_) (newMultiArray_left named counted h arena short)
      exact ⟨descriptor, count, a, b, named, counted, inner⟩
  | constant index => exact refused (fun _ => id) (loadConstant_left h arena short)
  | copy source ref =>
      exact refused (fun _ => id) ((invokeOnArray_strands source ref).left h arena short)
  | className => exact refused (fun _ => id) (getName_left h arena short)

end Engine

namespace Sample

/-- A machine with a heap for so many entries, and a thread that has just fetched an instruction. -/
def pinched (capacity : Nat) (classes : List LoadedClass) (pool : Pool) (code : List UInt8)
    (operands : Array Operand) : Machine where
  world :=
    { library := ⟨memoryError :: classes⟩
      classStates := #[memoryError.freshState, { statics := #[] }]
      heap := { capacity := some capacity } }
  thread :=
    { id := 0, frames := [{ frame code [] 0 with cls := { cls with pool }, pc := 1 }]
      operands, depths := [1], deepest := 1, level := 1 }

/-- A machine in front of making an array of two arrays, with memory for these two. -/
def halfway : Machine :=
  pinched 2 [] #[.empty, .className "[[I"] [0xc5, 0x00, 0x01, 0x02, 0xb1]
    #[⟨.int 2, 0⟩, ⟨.int 1, 0⟩]

/-- The same with an array of numbers in the heap, so that there is memory for one of the two. -/
def lacking : Machine :=
  { halfway with
    world :=
      { halfway.world with
        heap :=
          { cells := #[some ⟨0, .array ⟨"[I", .int, #[.int 7]⟩⟩], live := 1, made := 1
            capacity := some 2 } } }

theorem lacking_arena : lacking.world.heap.Arena := by
  have made : ({ capacity := some 2 } : Heap).insert (.array ⟨"[I", .int, #[.int 7]⟩) false =
      .ok (⟨0⟩, lacking.world.heap) := rfl
  exact Heap.Arena.insert (.blank (some 2) none) made

/-- The class of strings. -/
def string : LoadedClass :=
  { cls with
    name := stringClassName
    fields := [⟨"value", "[C", ⟨0⟩, stringClassName, .array .char⟩]
    id := 1 }

/-- A machine in front of a literal, with memory for its characters only. -/
def wordless : Machine := pinched 1 [string] #[.empty, .string "a"] [0x12, 0x01, 0xb1] #[]

/-- A class whose initialiser makes an array and drops it. -/
def littering : LoadedClass :=
  { cls with
    name := "B"
    methods := [{ clinit "B" with code := ⟨#[0x03, 0xbc, 0x0a, 0x57, 0xb1]⟩ }]
    id := 1 }

/-- A machine in front of the first object of that class, with memory for the array only. -/
def littered : Machine :=
  pinched 1 [littering] #[.empty, .className "B"] [0xbb, 0x00, 0x01, 0xb1] #[]

/-- Whether two entries are there, and the memory error is pending under a handle. -/
def keepsTwo (error : Handle) : EStateM.Result Stop Machine Unit → Bool
  | .ok _ m =>
      m.thread.pending == some error &&
        (m.world.heap.typeName (.object error)).toOption == some Throwable.outOfMemoryError &&
        (m.world.heap.cell? ⟨0⟩).isSome && (m.world.heap.cell? ⟨1⟩).isSome
  | .error .. => false

theorem lacking_keepsTwo : keepsTwo ⟨2⟩ (newMultiArray {} lacking) = true := by decide +kernel

theorem halfway_keepsTwo : keepsTwo ⟨2⟩ (newMultiArray {} halfway) = true := by decide +kernel

theorem wordless_keepsTwo : keepsTwo ⟨1⟩ (loadConstant 1 {} wordless) = true := by decide +kernel

theorem littered_keepsTwo :
    keepsTwo ⟨1⟩ (newObject (Engine.host coreNatives 9) {} littered) = true := by
  decide +kernel

theorem keepsTwo_ok {error : Handle} {result : EStateM.Result Stop Machine Unit}
    (seen : keepsTwo error result = true) :
    ∃ m, result = .ok () m ∧ m.thread.pending = some error ∧ m.OutOfMemory ∧
      (∃ c, m.world.heap.cell? ⟨0⟩ = some c) ∧ ∃ c, m.world.heap.cell? ⟨1⟩ = some c := by
  cases result with
  | error stop m => cases seen
  | ok u m =>
      simp only [keepsTwo, Bool.and_eq_true, beq_iff_eq, Option.isSome_iff_exists] at seen
      obtain ⟨⟨⟨pending, named⟩, first⟩, second⟩ := seen
      refine ⟨m, rfl, pending, ⟨error, pending, ?_⟩, first, second⟩
      cases name : m.world.heap.typeName (.object error) with
      | ok n =>
          rw [name] at named
          exact congrArg Except.ok (Option.some.inj named)
      | error f =>
          rw [name] at named
          cases named

/-- An operation is refused memory in a heap with its books in order, and the memory error is not
all that is new. -/
def Litters (q : Request) (m : Machine) : Prop :=
  m.thread.pending = none ∧ m.world.heap.Arena ∧
    ∃ m', q.run (Engine.host coreNatives 9) {} m = .ok () m' ∧ m'.OutOfMemory ∧
      ∀ r e, ¬ m.world.heap.Extended [(r, e)] m'.world.heap

/-- Of two entries that are there now, and were not before, one is left over. -/
theorem litters_of_keepsTwo {q : Request} {m : Machine} {error : Handle}
    (blank : m.world.heap = { capacity := m.world.heap.capacity }) (clear : m.thread.pending = none)
    (seen : keepsTwo error (q.run (Engine.host coreNatives 9) {} m) = true) : Litters q m := by
  refine ⟨clear, blank ▸ .blank _ none, ?_⟩
  obtain ⟨m', run, -, short, ⟨_, first⟩, _, second⟩ := keepsTwo_ok seen
  refine ⟨m', run, short, fun r e extended => ?_⟩
  have new {i : Nat} {c : Cell} (there : m'.world.heap.cell? ⟨i⟩ = some c) : r = ⟨i⟩ := by
    obtain old | listed := extended.only there
    · rw [blank] at old
      simp [Heap.cell?] at old
    · simpa [eq_comm] using listed
  exact absurd (congrArg Handle.index ((new first).symm.trans (new second))) (by decide)

end Sample

namespace Engine

/-- There is memory for one of two inner arrays.  It is left beside the array that was there. -/
theorem request_ends_lacking : ∃ m' e k,
    Request.dimensions.run (host coreNatives 9) {} Sample.lacking = .ok () m' ∧
      Request.dimensions.Ends (host coreNatives 9) {} Sample.lacking m' ∧
      m'.world.heap.array ⟨0⟩ = .ok ⟨"[I", .int, #[.int 7]⟩ ∧
      m'.world.heap.entry ⟨1⟩ = .ok e ∧ e.IsInner "[[I".toList k := by
  obtain ⟨m', run, pending, short, -, c, there⟩ := Sample.keepsTwo_ok Sample.lacking_keepsTwo
  have ends : Request.dimensions.Ends (host coreNatives 9) {} Sample.lacking m' :=
    request_ends Sample.lacking_arena rfl .dimensions run short
  obtain ⟨⟨descriptor, count, a, b, named, -, inner⟩, starved⟩ := id ends
  obtain ⟨new, r, error, rfl, extended, -, raised⟩ := starved
  cases named
  cases raised.symm.trans pending
  -- The entry was not there, and it is not the error.
  obtain old | listed := extended.only there
  · cases old
  · simp only [List.map_append, List.map_cons, List.map_nil, List.mem_append, List.mem_singleton,
      Handle.mk.injEq, OfNat.one_ne_ofNat, or_false] at listed
    obtain ⟨⟨h, e⟩, among, rfl⟩ := List.mem_map.mp listed
    obtain ⟨k, -, -, part⟩ := inner e (List.mem_map_of_mem among)
    have kept := extended.kept (r := ⟨0⟩) rfl
    refine ⟨m', e, k, run, ends, ?_, extended.added _ (List.mem_append_left _ among), part⟩
    exact Heap.array_eq_ok.mpr (Heap.entry_eq_ok.mpr ⟨_, kept⟩)

/-- The inner arrays of an array, the characters of a string, and what the initialiser of a class
has made are left when there is no memory for the array, the string or the object itself. -/
theorem request_leaves_rest : Sample.Litters .dimensions Sample.halfway ∧
    Sample.Litters (.constant 1) Sample.wordless ∧ Sample.Litters .object Sample.littered :=
  ⟨Sample.litters_of_keepsTwo rfl rfl Sample.halfway_keepsTwo,
    Sample.litters_of_keepsTwo rfl rfl Sample.wordless_keepsTwo,
    Sample.litters_of_keepsTwo rfl rfl Sample.littered_keepsTwo⟩

end Engine

end JavaMachine
