import JavaMachine.Proofs.Courses
import JavaMachine.Proofs.FieldLookup
import JavaMachine.Proofs.Guests

/-!
# Fields hold values of their types

A field of a primitive type holds a value of exactly that type: an int in the range of the type for
the five integer types, and a long, a float or a double for the other three.  Values are converted
when they are stored, and the conversion follows the type of the field that a reference means.  The
value then ends in that very field, because all look-ups of it agree.

`World.Typed` is the invariant: every static field and every field of an object suits its type, the
fields of an object are those that its class and the classes above it declare, and what the memo
remembers is what the library would find.  A world has it when its classes are just registered, and
whatever guests do keeps it.
-/

namespace JavaMachine

open Exec
open Relation (ReflTransGen)

/-! ## Values that suit a type -/

/-- A value suits a field of a type.  A field of a reference type may hold anything. -/
def Value.Suits (v : Value) : JType → Prop
  | .int => ∃ n, v = .int n
  | .byte => ∃ n : Int32, v = .int n ∧ -128 ≤ n.toInt ∧ n.toInt ≤ 127
  | .short => ∃ n : Int32, v = .int n ∧ -32768 ≤ n.toInt ∧ n.toInt ≤ 32767
  | .char => ∃ n : Int32, v = .int n ∧ 0 ≤ n.toInt ∧ n.toInt ≤ 65535
  | .boolean => v = .int 0 ∨ v = .int 1
  | .long => ∃ n, v = .long n
  | .float => ∃ x, v = .float x
  | .double => ∃ x, v = .double x
  | .reference _ | .array _ | .void => True

namespace Value

variable {v u : Value} {t : JType}

theorem suits_of_isReference (h : t.isReference = true) : v.Suits t := by
  cases t with
  | reference | array => trivial
  | _ => cases h

theorem defaultOf_suits (t : JType) : (defaultOf t).Suits t := by
  cases t with
  | int | long | float | double => exact ⟨_, rfl⟩
  | byte | short | char => exact ⟨0, rfl, by decide, by decide⟩
  | boolean => exact .inl rfl
  | reference | array | void => trivial

theorem narrowByte_range (n : Int32) :
    -128 ≤ (narrowByte n).toInt ∧ (narrowByte n).toInt ≤ 127 := by
  have low := n.toInt8.le_toInt
  have high := n.toInt8.toInt_lt
  rw [narrowByte, Int8.toInt_toInt32]
  omega

theorem narrowShort_range (n : Int32) :
    -32768 ≤ (narrowShort n).toInt ∧ (narrowShort n).toInt ≤ 32767 := by
  have low := n.toInt16.le_toInt
  have high := n.toInt16.toInt_lt
  rw [narrowShort, Int16.toInt_toInt32]
  omega

/-- The bits of a mask without a sign are between none and all of them. -/
theorem and_range (n : Int32) {mask : Int32} (unsigned : mask.toBitVec.msb = false) :
    0 ≤ (n &&& mask).toInt ∧ (n &&& mask).toInt ≤ mask.toInt := by
  have positive : (n &&& mask).toBitVec.msb = false := by
    rw [Int32.toBitVec_and, BitVec.msb_and, unsigned, Bool.and_false]
  have below : (n &&& mask).toBitVec.toNat ≤ mask.toBitVec.toNat := by
    rw [Int32.toBitVec_and, BitVec.toNat_and]
    exact Nat.and_le_right
  rw [Int32.toInt, BitVec.toInt_eq_toNat_of_msb positive, Int32.toInt,
    BitVec.toInt_eq_toNat_of_msb unsigned]
  omega

theorem narrowChar_range (n : Int32) :
    0 ≤ (narrowChar n).toInt ∧ (narrowChar n).toInt ≤ 65535 := and_range n (by decide)

theorem narrowBoolean_cases (n : Int32) : narrowBoolean n = 0 ∨ narrowBoolean n = 1 := by
  have range : 0 ≤ (n &&& 1).toInt ∧ (n &&& 1).toInt ≤ (1 : Int32).toInt := and_range n (by decide)
  have one : (1 : Int32).toInt = 1 := by decide
  have zero : (0 : Int32).toInt = 0 := by decide
  rw [narrowBoolean, ← Int32.toInt_inj, ← Int32.toInt_inj]
  omega

/-- An operand that was converted to a type suits it. -/
theorem coerceTo_suits (h : v.coerceTo t = .ok u) : u.Suits t := by
  have mapped {α : Type} {r : Except Fault α} {g : α → Value} (h : r.map g = .ok u) :
      ∃ a, g a = u := by
    cases r with
    | error e => cases h
    | ok a => exact ⟨a, Except.ok.inj h⟩
  cases t with
  | int | long | float | double =>
      obtain ⟨n, rfl⟩ := mapped h
      exact ⟨n, rfl⟩
  | byte =>
      obtain ⟨n, rfl⟩ := mapped h
      exact ⟨_, rfl, narrowByte_range n⟩
  | short =>
      obtain ⟨n, rfl⟩ := mapped h
      exact ⟨_, rfl, narrowShort_range n⟩
  | char =>
      obtain ⟨n, rfl⟩ := mapped h
      exact ⟨_, rfl, narrowChar_range n⟩
  | boolean =>
      obtain ⟨n, rfl⟩ := mapped h
      exact (narrowBoolean_cases n).imp (congrArg Value.int) (congrArg Value.int)
  | reference | array | void => trivial

end Value

/-! ## What is typed -/

/-- Every field of a class has a place in its state, and what is there suits the field. -/
structure ClassState.Holds (state : ClassState) (c : ClassDecl) : Prop where
  /-- There are as many places as fields. -/
  size : state.statics.size = c.fields.length
  /-- What a place holds suits the field. -/
  suits : ∀ {i : Nat} {f : FieldDecl} {v : Value}, c.fields[i]? = some f →
    state.statics[i]? = some v → v.Suits f.type

/-- An object has the fields that its class has in the library, and what they hold suits them. -/
def Entry.Typed (lib : Library) : Entry → Prop
  | .array _ => True
  | .object cls slots => lib.find? cls.name = some cls ∧
      slots.map Slot.field = lib.instanceFields cls ∧ ∀ s ∈ slots, s.value.Suits s.field.type

/-- All objects of a heap are typed. -/
def Heap.Typed (lib : Library) (h : Heap) : Prop :=
  ∀ r c, h.cell? r = some c → c.entry.Typed lib

/-- The classes of a library have places of their own, their fields bear their names, and the classes
of strings and exceptions are those that the machine brings along. -/
structure Library.Regular (lib : Library) : Prop where
  /-- No two classes have one place. -/
  distinct : ∀ {c d}, c ∈ lib.classes → d ∈ lib.classes → c.id = d.id → c = d
  /-- Fields bear the names of their classes. -/
  owns : lib.Owns
  /-- The classes of strings and exceptions are known. -/
  boot : lib.Bootstrapped

/-- All fields of a world hold what suits their types. -/
structure World.Typed (w : World) : Prop where
  /-- The library is in order. -/
  regular : w.library.Regular
  /-- The books of the heap are in order. -/
  arena : w.heap.Arena
  /-- What is remembered is what the library finds. -/
  memo : ∀ {key f}, w.fieldMemo.lookup key = some f → w.library.findField key.1 key.2 = some f
  /-- Every class has a state with what suits its fields. -/
  statics : ∀ c ∈ w.library.classes, ∃ state, w.classStates[c.id]? = some state ∧
    state.Holds c.toClassDecl
  /-- Every object has what suits its fields. -/
  objects : w.heap.Typed w.library

/-! ## Fields of objects -/

namespace Slot

/-- A store changes what the first slot of a field holds. -/
theorem store_typed {f : FieldDecl} {v : Value} : ∀ {slots : List Slot},
    (∀ s ∈ slots, s.value.Suits s.field.type) →
    (∀ s, slots.find? (·.holds f) = some s → v.Suits s.field.type) →
    (store f v slots).map field = slots.map field ∧
      ∀ s ∈ store f v slots, s.value.Suits s.field.type
  | [], typed, _ => ⟨rfl, typed⟩
  | s :: slots, typed, fits => by
      have inner := fun s' listed => typed s' (List.mem_cons_of_mem s listed)
      rw [List.find?_cons] at fits
      unfold store
      cases held : s.holds f with
      | true =>
          rw [held] at fits
          refine ⟨rfl, fun s' listed => ?_⟩
          rcases List.mem_cons.mp listed with rfl | old
          · exact fits s rfl
          · exact inner s' old
      | false =>
          rw [held] at fits
          obtain ⟨same, suits⟩ := store_typed inner fits
          refine ⟨congrArg (s.field :: ·) same, fun s' listed => ?_⟩
          rcases List.mem_cons.mp listed with rfl | rest
          · exact typed _ List.mem_cons_self
          · exact suits s' rest

end Slot

namespace Heap

variable {lib : Library} {h h' : Heap} {r : Handle} {e : Entry} {f : FieldRef} {v : Value}

theorem Typed.grown (typed : h.Typed lib) (grown : Grown h e r h') (new : e.Typed lib) :
    h'.Typed lib := by
  intro r' c found
  rw [grown.cells] at found
  split at found
  · cases found
    exact new
  · exact typed r' c found

theorem Typed.replace (typed : h.Typed lib) (new : e.Typed lib) : (h.replace r e).Typed lib := by
  intro r' c found
  rw [cell?_replace] at found
  split at found
  · obtain ⟨old, -, rfl⟩ := Option.map_eq_some_iff.mp found
    exact new
  · exact typed r' c found

theorem Typed.entry (typed : h.Typed lib) (found : h.entry r = .ok e) : e.Typed lib := by
  obtain ⟨serial, cell⟩ := entry_eq_ok.mp found
  exact typed r _ cell

/-- The slot of a declared field in an object is of that field. -/
theorem Typed.slot (typed : h.Typed lib) (regular : lib.Regular) (declared : lib.Declares f)
    (ofObjects : f.decl.flags.isStatic = false) {cls : LoadedClass} {slots : List Slot} {s : Slot}
    (found : h.entry r = .ok (.object cls slots)) (held : slots.find? (·.holds f.decl) = some s) :
    s.field = f.decl := by
  obtain ⟨known, fields, -⟩ := typed.entry found
  refine Library.instanceFields_find? regular.owns known declared ofObjects ?_
  rw [← fields, List.find?_map]
  exact congrArg (Option.map Slot.field) held

/-- A store into a field of an object leaves a value that suits it. -/
theorem Typed.setField (typed : h.Typed lib) (regular : lib.Regular) (declared : lib.Declares f)
    (ofObjects : f.decl.flags.isStatic = false) (suits : v.Suits f.decl.type)
    (stored : h.setField r f.decl v = .ok h') : h'.Typed lib := by
  obtain ⟨cls, slots, found, -, rfl⟩ := setField_ok stored
  obtain ⟨known, fields, held⟩ := typed.entry found
  obtain ⟨same, after⟩ := Slot.store_typed (f := f.decl) (v := v) held fun s first =>
    (typed.slot regular declared ofObjects found first) ▸ suits
  exact typed.replace ⟨known, same.trans fields, after⟩

/-- What a declared field of an object holds suits it. -/
theorem Typed.getField (typed : h.Typed lib) (regular : lib.Regular) (declared : lib.Declares f)
    (ofObjects : f.decl.flags.isStatic = false) (read : h.getField r f.decl = .ok v) :
    v.Suits f.decl.type := by
  obtain ⟨cls, slots, s, found, first, rfl⟩ := getField_ok read
  obtain ⟨-, -, held⟩ := typed.entry found
  rw [← typed.slot regular declared ofObjects found first]
  exact held s (List.mem_of_find?_eq_some first)

end Heap

/-! ## One change of the memory -/

namespace World

variable {w w' : World}

/-- What is stored into a field of an object suits it, and the field is declared. -/
theorem Writes.suits {f : FieldDecl} {v : Value} (h : w.Writes f v) (typed : w.Typed) :
    ∃ ref : FieldRef, ref.decl = f ∧ w.library.Declares ref ∧ f.flags.isStatic = false ∧
      v.Suits f.type := by
  cases h with
  | @coerced key ref _ _ known ofObjects fits =>
      exact ⟨ref, rfl, Library.findField_declares (typed.memo known), ofObjects,
        Value.coerceTo_suits fits⟩
  | @characters ref chars known =>
      have found := typed.memo known
      obtain ⟨ofObjects, reference⟩ := typed.regular.boot.characters found
      exact ⟨ref, rfl, Library.findField_declares found, ofObjects,
        Value.suits_of_isReference reference⟩
  | @message _ ref text own known =>
      have found := typed.memo known
      obtain ⟨ofObjects, reference⟩ := typed.regular.boot.message own found
      exact ⟨ref, rfl, Library.findField_declares found, ofObjects,
        Value.suits_of_isReference reference⟩

/-- Only the heap has changed. -/
theorem Typed.with_heap (typed : w.Typed) {heap : Heap} {crossings : Nat} {lapses : Lapses}
    (arena : heap.Arena) (objects : heap.Typed w.library) :
    ({ w with heap, crossings, lapses } : World).Typed :=
  ⟨typed.regular, arena, typed.memo, typed.statics, objects⟩

/-- A new object holds what suits its fields. -/
theorem Typed.object (typed : w.Typed) {cls : LoadedClass} {reserved : Bool} {r : Handle}
    {heap : Heap} (found : w.library.find? cls.name = some cls)
    (made : w.heap.allocateObject cls (w.library.instanceFields cls) reserved = .ok (r, heap)) :
    ({ w with heap } : World).Typed := by
  refine typed.with_heap (typed.arena.insert made)
    (typed.objects.grown (typed.arena.grown made) ⟨found, ?_, ?_⟩)
  · simp [Function.comp_def]
  · intro s listed
    obtain ⟨f, -, rfl⟩ := List.mem_map.mp listed
    exact Value.defaultOf_suits f.type

/-- Whatever is not the memory may change. -/
theorem Typed.beside (typed : w.Typed) (library : w'.library = w.library) (heap : w'.heap = w.heap)
    (statics : ∀ id : Nat, (w'.classStates[id]?).map ClassState.statics =
      (w.classStates[id]?).map ClassState.statics)
    (memo : w'.fieldMemo = w.fieldMemo) : w'.Typed := by
  refine ⟨library ▸ typed.regular, heap ▸ typed.arena, ?_, ?_, ?_⟩
  · rw [memo, library]
    exact typed.memo
  · rw [library]
    intro c listed
    obtain ⟨state, there, holds⟩ := typed.statics c listed
    have same := statics c.id
    rw [there] at same
    obtain ⟨state', there', same⟩ := Option.map_eq_some_iff.mp same
    exact ⟨state', there', same ▸ holds.size, fun field held => holds.suits field (same ▸ held)⟩
  · rw [heap, library]
    exact typed.objects

/-- Every change of the memory leaves fields that hold what suits them. -/
theorem Stir.typed (h : w.Stir w') (typed : w.Typed) : w'.Typed := by
  have arena := h.arena typed.arena
  cases h with
  | beside library heap statics memo => exact typed.beside library heap statics memo
  | @remembered key f new found =>
      refine ⟨typed.regular, arena, fun {key' g} known => ?_, typed.statics, typed.objects⟩
      rw [List.lookup_cons] at known
      split at known
      next same =>
        rw [eq_of_beq same]
        exact found.trans known
      next => exact typed.memo known
  | object found made => exact typed.object found made
  | array _ made =>
      exact typed.with_heap arena
        (typed.objects.grown (typed.arena.grown (Heap.allocateArray_ok made)) trivial)
  | characters _ made =>
      exact typed.with_heap arena (typed.objects.grown (typed.arena.grown made) trivial)
  | nested _ _ _ made =>
      exact typed.with_heap arena (typed.objects.grown (typed.arena.grown made) trivial)
  | cloned made =>
      obtain ⟨a, -, made⟩ := Heap.cloneArray_ok made
      exact typed.with_heap arena (typed.objects.grown (typed.arena.grown made) trivial)
  | field fits stored =>
      obtain ⟨ref, rfl, declared, ofObjects, suits⟩ := fits.suits typed
      exact typed.with_heap arena
        (typed.objects.setField typed.regular declared ofObjects suits stored)
  | element _ _ _ stored =>
      obtain ⟨a, -, ⟨-, rfl⟩ | ⟨i, -, rfl⟩⟩ := Heap.storeElement_ok stored
      · exact typed.with_heap arena typed.objects
      · exact typed.with_heap arena (typed.objects.replace trivial)
  | copied => exact typed.with_heap arena (typed.objects.replace trivial)

/-- A store into a static field leaves a value that suits it. -/
theorem Typed.setStatic (typed : w.Typed) {f : FieldRef} {v : Value}
    (declared : w.library.Declares f) (suits : v.Suits f.decl.type) :
    ({ w with
        classStates := w.classStates.modify f.owner.id fun s =>
          { s with statics := s.statics.setIfInBounds f.index v }
        lapses := w.lapses.leak v } : World).Typed := by
  refine ⟨typed.regular, typed.arena, typed.memo, fun c listed => ?_, typed.objects⟩
  obtain ⟨state, there, holds⟩ := typed.statics c listed
  obtain ⟨e, means, field⟩ := declared
  obtain ⟨owner, place, -⟩ := Library.field?_eq_some field
  simp only [Array.getElem?_modify, there, owner]
  split
  next same =>
    -- no other class has the place of the one that declares the field
    have this : e = c := typed.regular.distinct (Library.mem_of_find? means) listed same
    subst this
    refine ⟨_, rfl, Array.size_setIfInBounds.trans holds.size, fun {i g u} there held => ?_⟩
    rw [Array.getElem?_setIfInBounds] at held
    split at held
    next here =>
      subst here
      cases place.symm.trans there
      split at held
      · cases held
        exact suits
      · cases held
    next => exact holds.suits there held
  next => exact ⟨state, rfl, holds⟩

/-- What a declared static field holds suits it. -/
theorem Typed.getStatic (typed : w.Typed) {f : FieldRef} (declared : w.library.Declares f) :
    (((w.classStates[f.owner.id]?).bind (·.statics[f.index]?)).getD
      (Value.defaultOf f.decl.type)).Suits f.decl.type := by
  obtain ⟨e, means, field⟩ := declared
  obtain ⟨owner, place, -⟩ := Library.field?_eq_some field
  obtain ⟨state, there, holds⟩ := typed.statics e (Library.mem_of_find? means)
  have here : w.classStates[f.owner.id]? = some state := by
    rw [owner]
    exact there
  rw [here, Option.bind_some]
  cases held : state.statics[f.index]? with
  | none => exact Value.defaultOf_suits _
  | some v => exact holds.suits place held

/-- If the fields of a world hold what suits them, so do those of another one with the same
library. -/
def KeepsTypes (w w' : World) : Prop := w.Typed → w'.Typed ∧ w'.library = w.library

instance : AllowsHost KeepsTypes where
  refl w typed := ⟨typed, rfl⟩
  trans a b c first second typed := by
    obtain ⟨typed, same⟩ := first typed
    obtain ⟨typed, same'⟩ := second typed
    exact ⟨typed, same'.trans same⟩
  stirs {w w'} stirs typed := by
    have chain := (stirs typed.arena).chain
    clear stirs
    induction chain with
    | refl => exact ⟨typed, rfl⟩
    | tail _ last ih => exact ⟨last.typed ih.1, last.library_eq.trans ih.2⟩
  beside library states heap memo _ typed :=
    ⟨typed.beside library heap (fun _ => by rw [states]) memo, library⟩

end World

/-! ## What guests do -/

namespace Exec

variable {s : Settings} {m m' : Machine} {f : FieldRef}

theorem Keeps.typed {α : Type} {x : Exec α} {a : α}
    (hx : Keeps (Machine.Seen World.KeepsTypes) x) (h : x s m = .ok a m') (typed : m.world.Typed) :
    m'.world.Typed ∧ m'.world.library = m.world.library := hx.of_ok h typed

/-- A field that an instruction names is declared. -/
theorem readField_declares {static : Bool} (typed : m.world.Typed)
    (h : readField static s m = .ok (some f) m') :
    f.decl.flags.isStatic = static ∧ m'.world.Typed ∧ m'.world.library.Declares f := by
  obtain ⟨same, key, known⟩ := readField_known h
  obtain ⟨typed, -⟩ := (readField_keeps static).typed h typed
  exact ⟨same, typed, Library.findField_declares (typed.memo known)⟩

section

variable {host : Host} (hr : host.toReentry.Goes (.seeing World.KeepsTypes))

include hr

/-- A static field is still declared after its class was brought into use. -/
theorem readStaticField_declares (typed : m.world.Typed)
    (h : readStaticField host s m = .ok (some f) m') :
    m'.world.Typed ∧ m'.world.library.Declares f := by
  obtain ⟨g, m₁, read, h⟩ := bind_eq_ok h
  cases g with
  | none => cases h
  | some g =>
      obtain ⟨-, typed, declared⟩ := readField_declares typed read
      dsimp only at h
      obtain ⟨cls, m₂, looked, rest⟩ := bind_eq_ok h
      obtain ⟨rfl, -⟩ := findClass_ok looked
      obtain ⟨usable, m₃, used, rest⟩ := bind_eq_ok rest
      obtain ⟨typed, same⟩ := (ensureInitialised_seen hr cls).typed used typed
      cases usable with
      | false => cases rest
      | true =>
          cases rest
          exact ⟨typed, same ▸ declared⟩

theorem putStaticField_typed : Keeps (Machine.Seen World.KeepsTypes) (putStaticField host) := by
  intro s m typed
  refine (?_ : Machine.Seen World.KeepsTypes m _) typed
  refine Keeps.bind_after (readStaticField_seen hr s m) fun f m₁ read => ?_
  cases f with
  | none => exact Keeps.pure _ s m₁
  | some f =>
      obtain ⟨typed, declared⟩ := readStaticField_declares hr typed read
      refine Keeps.bind_after (pop_keeps s m₁) fun operand m₂ popped => ?_
      obtain ⟨typed, same⟩ := pop_keeps.typed popped typed
      refine Keeps.ofExcept_after fun v fits => ?_
      refine Keeps.bind_after (useClass_stirring f.owner.id s m₂) fun _ m₃ noted => ?_
      obtain ⟨typed, same'⟩ := (useClass_stirring f.owner.id).typed noted typed
      rw [← same, ← same'] at declared
      exact fun _ => ⟨typed.setStatic declared (Value.coerceTo_suits fits), rfl⟩

theorem newObject_typed : Keeps (Machine.Seen World.KeepsTypes) (newObject host) := by
  intro s m typed
  refine (?_ : Machine.Seen World.KeepsTypes m _) typed
  refine Keeps.bind_after (readClassName_keeps s m) fun name m₁ read => ?_
  obtain ⟨typed, -⟩ := readClassName_keeps.typed read typed
  refine Keeps.bind_after (resolveClass_keeps name s m₁) fun cls m₂ looked => ?_
  cases cls with
  | none => exact Keeps.pure _ s m₂
  | some cls =>
      obtain ⟨rfl, found⟩ := resolveClass_some looked
      dsimp only
      split
      · exact (raise_keeps _ _) s m₂
      · refine Keeps.bind_after (ensureInitialised_seen hr cls s m₂) fun usable m₃ used => ?_
        obtain ⟨typed, same⟩ := (ensureInitialised_seen hr cls).typed used typed
        cases usable with
        | false => exact Keeps.pure _ s m₃
        | true =>
            refine Keeps.bind_after (useClass_stirring cls.id s m₃) fun _ m₄ noted => ?_
            obtain ⟨-, same'⟩ := (useClass_stirring cls.id).typed noted typed
            have found : m₄.world.library.find? cls.name = some cls := by
              rw [same', same, Library.name_of_find? found]
              exact found
            refine Keeps.bind_after (orOutOfMemory_after (newInstance_after found))
              fun object m₅ _ => ?_
            split
            · exact push_keeps rfl s m₅
            · exact Keeps.pure _ s m₅

/-- What is pushed for a static field suits it. -/
theorem getStaticField_pushes (typed : m.world.Typed) (h : getStaticField host s m = .ok () m') :
    readStaticField host s m = .ok none m' ∨ ∃ f mid v, readStaticField host s m = .ok (some f) mid ∧
      m'.thread = mid.thread.push v ∧ v.Suits f.decl.type := by
  obtain ⟨f, mid, read, h⟩ := bind_eq_ok h
  cases f with
  | none =>
      cases h
      exact .inl read
  | some f =>
      obtain ⟨typed, declared⟩ := readStaticField_declares hr typed read
      obtain ⟨_, m₂, noted, h⟩ := bind_eq_ok h
      obtain ⟨typed, same⟩ := (useClass_stirring f.owner.id).typed noted typed
      have sameMonitors := (useClass_sameThreadMonitors f.owner.id).of_ok noted
      obtain ⟨v, m₃, held, h⟩ := bind_eq_ok h
      cases held
      cases h
      refine .inr ⟨f, mid, _, read, ?_, typed.getStatic (same ▸ declared)⟩
      exact congrArg (Thread.push · _) sameMonitors.thread

end

/-- What is pushed for a field of an object suits it. -/
theorem getInstanceField_pushes (typed : m.world.Typed) (h : getInstanceField s m = .ok () m') :
    readField false s m = .ok none m' ∨ ∃ f operand m₁ m₂, readField false s m = .ok (some f) m₁ ∧
      pop s m₁ = .ok operand m₂ ∧ (operand = .null ∧
          raise Throwable.nullPointerException none s m₂ = .ok () m' ∨
        ∃ v, m'.thread = m₂.thread.push v ∧ v.Suits f.decl.type) := by
  obtain ⟨f, m₁, read, h⟩ := bind_eq_ok h
  cases f with
  | none =>
      cases h
      exact .inl read
  | some f =>
      obtain ⟨ofObjects, typed, declared⟩ := readField_declares typed read
      obtain ⟨operand, m₂, popped, h⟩ := bind_eq_ok h
      obtain ⟨typed, same⟩ := pop_keeps.typed popped typed
      refine .inr ⟨f, operand, m₁, m₂, read, popped, ?_⟩
      split at h
      · exact .inl ⟨rfl, h⟩
      · rw [bind_of_ok heap_run] at h
        obtain ⟨v, m₃, held, h⟩ := bind_eq_ok h
        cases found : m₂.world.heap.getField _ f.decl with
        | error e => rw [found] at held; cases held
        | ok u =>
            rw [found] at held
            cases held
            cases h
            exact .inr ⟨_, rfl, typed.objects.getField typed.regular (same ▸ declared) ofObjects found⟩
      · cases h

end Exec

/-! ## The beginning -/

namespace World

variable {w : World}

/-- Nothing is registered or remembered, and the heap is as configured. -/
structure Blank (w : World) : Prop where
  /-- There are no classes. -/
  library : w.library = {}
  /-- There are no states of classes. -/
  states : w.classStates = #[]
  /-- No field was resolved. -/
  memo : w.fieldMemo = []
  /-- Nothing was allocated. -/
  heap : w.heap = { capacity := w.heap.capacity, maxArrayLength := w.heap.maxArrayLength }

/-- Classes were registered, and nothing else was done. -/
structure Registered (w : World) : Prop where
  /-- Every class has a state. -/
  size : w.classStates.size = w.library.classes.length
  /-- The place of a class is among the states. -/
  placed : ∀ c ∈ w.library.classes, c.id < w.library.classes.length
  /-- No two classes have one place. -/
  distinct : ∀ {c d}, c ∈ w.library.classes → d ∈ w.library.classes → c.id = d.id → c = d
  /-- Fields bear the names of their classes. -/
  owns : w.library.Owns
  /-- Every class has a state with what suits its fields. -/
  statics : ∀ c ∈ w.library.classes, ∃ state, w.classStates[c.id]? = some state ∧
    state.Holds c.toClassDecl
  /-- No field was resolved. -/
  memo : w.fieldMemo = []
  /-- Nothing was allocated. -/
  heap : w.heap = { capacity := w.heap.capacity, maxArrayLength := w.heap.maxArrayLength }

theorem Blank.registered (blank : w.Blank) : w.Registered := by
  have none : w.library.classes = [] := by rw [blank.library]
  refine ⟨?_, ?_, ?_, ?_, ?_, blank.memo, blank.heap⟩
  · rw [none, blank.states]
    rfl
  all_goals simp [none, Library.Owns]

/-- The fields of a class that was just declared hold their defaults. -/
theorem freshState_holds (decl : ClassDecl) : decl.freshState.Holds decl where
  size := by simp [ClassDecl.freshState]
  suits {i f v} there held := by
    have default : v = Value.defaultOf f.type := by
      simpa [ClassDecl.freshState, there, eq_comm] using held
    rw [default]
    exact Value.defaultOf_suits f.type

/-- One more class is registered. -/
theorem Registered.register (registered : w.Registered) {spec : ClassSpec} {decl : ClassDecl}
    (reads : spec.Reads decl) (events : Array Event) :
    ({ w with events, library := (w.library.register decl).1,
              classStates := w.classStates.push decl.freshState } : World).Registered := by
  have new {c : LoadedClass} (listed : c ∈ (w.library.register decl).1.classes) :
      c = { decl with id := w.library.classes.length } ∨ c ∈ w.library.classes :=
    List.mem_cons.mp listed
  refine ⟨?_, ?_, ?_, ?_, ?_, registered.memo, registered.heap⟩
  · simp [Library.register, registered.size]
  · intro c listed
    rcases new listed with rfl | old
    · simp [Library.register]
    · exact Nat.lt_succ_of_lt (registered.placed c old)
  · intro c d listed listed' same
    rcases new listed with rfl | old <;> rcases new listed' with rfl | old'
    · rfl
    · exact absurd same (Nat.ne_of_gt (registered.placed d old'))
    · exact absurd same (Nat.ne_of_lt (registered.placed c old))
    · exact registered.distinct old old' same
  · intro c listed f inside
    rcases new listed with rfl | old
    · exact reads.own f inside
    · exact registered.owns c old f inside
  · intro c listed
    rcases new listed with rfl | old
    · exact ⟨_, by simp [← registered.size], freshState_holds decl⟩
    · obtain ⟨state, there, holds⟩ := registered.statics c old
      have inside : c.id < w.classStates.size := registered.size ▸ registered.placed c old
      exact ⟨state, by rw [Array.getElem?_push_lt inside, ← there]; simp, holds⟩

/-- When classes are registered, the fields hold what suits them. -/
theorem Registered.typed (registered : w.Registered) (boot : w.library.Bootstrapped) : w.Typed where
  regular := ⟨registered.distinct, registered.owns, boot⟩
  arena := by
    rw [registered.heap]
    exact .blank _ _
  memo known := by
    rw [registered.memo] at known
    cases known
  statics := registered.statics
  objects r c found := by
    rw [registered.heap] at found
    simp [Heap.cell?] at found

end World

namespace Bootstrap

variable {s : Settings} {m m' : Machine} {spec : ClassSpec}

/-- A class is read and registered. -/
theorem define_ok {c : LoadedClass} (h : define spec s m = .ok c m') :
    ∃ decl events, spec.build = .ok decl ∧ m' = { m with world := { m.world with
      events, library := (m.world.library.register decl).1
      classStates := m.world.classStates.push decl.freshState } } := by
  cases built : spec.build with
  | error e =>
      rw [define, built] at h
      cases h
  | ok decl =>
      obtain ⟨events, run⟩ := define_run (s := s) (m := m) built
      rw [run] at h
      cases h
      exact ⟨decl, events, rfl, rfl⟩

/-- Registers classes one after the other. -/
abbrev defineAll (specs : List ClassSpec) : Exec Unit := specs.forM fun c => discard (define c)

/-- Whether classes can be registered is found by registering them. -/
theorem defineAll_after {specs : List ClassSpec} (ends : (match defineAll specs s m with
    | .ok _ _ => true
    | .error _ _ => false) = true) :
    defineAll specs s m = .ok () ((defineAll specs).after s m) := by
  split at ends
  next run => exact run.trans (congrArg _ (after_of_ok run).symm)
  next => cases ends

theorem defineAll_cons {specs : List ClassSpec} (h : defineAll (spec :: specs) s m = .ok () m') :
    ∃ c mid, define spec s m = .ok c mid ∧ defineAll specs s mid = .ok () m' := by
  obtain ⟨_, mid, first, rest⟩ := bind_eq_ok h
  obtain ⟨c, first, -⟩ := map_eq_ok first
  exact ⟨c, mid, first, rest⟩

theorem defineAll_registered {specs : List ClassSpec} (h : defineAll specs s m = .ok () m')
    (registered : m.world.Registered) : m'.world.Registered := by
  induction specs generalizing m with
  | nil =>
      cases h
      exact registered
  | cons spec specs ih =>
      obtain ⟨c, mid, first, rest⟩ := defineAll_cons h
      obtain ⟨decl, events, built, rfl⟩ := define_ok first
      exact ih rest (registered.register (ClassSpec.build_reads built) events)

/-- What is provided stays so when a class of another name is registered. -/
theorem provides_register {lib : Library} {decl : ClassDecl} (provided : lib.Provides spec)
    (other : spec.name ≠ decl.name) : (lib.register decl).1.Provides spec := by
  obtain ⟨d, found, read⟩ := provided
  refine ⟨d, ?_, read⟩
  have different : (decl.name == spec.name) = false := beq_false_of_ne (Ne.symm other)
  simp only [Library.register, Library.find?, List.find?_cons, different]
  exact found

/-- What is provided stays so when classes of other names are registered. -/
theorem defineAll_keeps_provided {specs : List ClassSpec} (h : defineAll specs s m = .ok () m')
    (new : spec.name ∉ specs.map ClassSpec.name) (provided : m.world.library.Provides spec) :
    m'.world.library.Provides spec := by
  induction specs generalizing m with
  | nil =>
      cases h
      exact provided
  | cons other specs ih =>
      obtain ⟨c, mid, first, rest⟩ := defineAll_cons h
      obtain ⟨decl, events, built, rfl⟩ := define_ok first
      rw [List.map_cons, List.mem_cons, not_or] at new
      refine ih rest new.2 (provides_register provided ?_)
      rw [(ClassSpec.build_reads built).name]
      exact new.1

/-- Classes that are registered under names of their own are provided. -/
theorem defineAll_provides {specs : List ClassSpec} (h : defineAll specs s m = .ok () m')
    (nodup : (specs.map ClassSpec.name).Nodup) (listed : spec ∈ specs) :
    m'.world.library.Provides spec := by
  induction specs generalizing m with
  | nil => cases listed
  | cons other specs ih =>
      obtain ⟨c, mid, first, rest⟩ := defineAll_cons h
      rw [List.map_cons, List.nodup_cons] at nodup
      rcases List.mem_cons.mp listed with rfl | inside
      · refine defineAll_keeps_provided rest nodup.1 ?_
        obtain ⟨decl, events, built, rfl⟩ := define_ok first
        have same : (decl.name == spec.name) = true := by
          rw [(ClassSpec.build_reads built).name]
          exact BEq.rfl
        refine ⟨{ decl with id := m.world.library.classes.length }, ?_, built⟩
        simp only [Library.register, Library.find?, List.find?_cons, same]
      · exact ih rest nodup.2 inside

end Bootstrap

/-! ## Fields keep their types -/

namespace World

variable {w w' : World}

/-- What is done to a world: guests do their work, and hosts change the memory in the same ways,
but never a static field. -/
def Deed (w w' : World) : Prop := w.Guest w' ∨ w.Stir w'

theorem Deed.keepsTypes (h : w.Deed w') : w.KeepsTypes w' := by
  rcases h with guest | stir
  · exact guest.keeps putStaticField_typed newObject_typed
  · exact fun typed => ⟨stir.typed typed, stir.library_eq⟩

/-- Whatever is done, one deed after the other, leaves fields that hold what suits them. -/
theorem Typed.deeds (typed : w.Typed) (work : ReflTransGen Deed w w') : w'.Typed := by
  induction work with
  | refl => exact typed
  | tail _ last ih => exact (last.keepsTypes ih).1

end World

namespace Sample

/-- A class with a static byte. -/
def gauge : ClassSpec where
  name := "Gauge"
  superName := none
  constants := [.field ⟨"Gauge", "level", "B"⟩]
  fields := [⟨"level", "B", 0x0008⟩]

/-- The machine in which the bootstrap classes and the gauge are registered. -/
def gauged : Machine :=
  (Bootstrap.defineAll (Bootstrap.classes ++ [gauge])).after {} ⟨{}, { id := 0 }⟩

theorem gauged_registered :
    Bootstrap.defineAll (Bootstrap.classes ++ [gauge]) {} ⟨{}, { id := 0 }⟩ = .ok () gauged :=
  Bootstrap.defineAll_after (by decide +kernel)

/-- A thread in front of the instruction that stores an int of more than eight bits into the
byte. -/
def gauging : Thread :=
  { id := 0, depths := [1], deepest := 1, operands := #[⟨.int 300, 0⟩]
    frames := [{ frame [0xb3, 0x00, 0x01, 0xb1] [] 0 with
      cls := { cls with pool := gauge.numbered.1 } }] }

/-- The world after the instruction. -/
def set : World := ((step (Engine.host coreNatives 1)).after {} ⟨gauged.world, gauging⟩).world

end Sample

/-- Fields keep their types.  Let classes be registered, the ones of strings and exceptions as the
machine brings them along, and then let guests and hosts work in any order, hosts without storing
into fields in ways of their own.  A piece of work may be cut off by its budget in front of any
instruction.  Then every class has values for its fields that suit their types, every object has the
fields that its class and the classes above it declare, with values that suit their types, and what
an instruction pushes for a field suits the type of that field. -/
theorem fields_typed {specs : List ClassSpec} {s : Settings} {m₀ m : Machine} {w : World}
    (blank : m₀.world.Blank) (registered : Bootstrap.defineAll specs s m₀ = .ok () m)
    (boot : m.world.library.Bootstrapped) (work : ReflTransGen World.Deed m.world w) :
    (∀ c ∈ w.library.classes, ∃ state, w.classStates[c.id]? = some state ∧
      state.Holds c.toClassDecl) ∧
    (∀ r cls slots, w.heap.object r = .ok (cls, slots) →
      slots.map Slot.field = w.library.instanceFields cls ∧
      ∀ slot ∈ slots, slot.value.Suits slot.field.type) ∧
    (∀ budget s t m', getStaticField (Engine.host coreNatives budget) s ⟨w, t⟩ = .ok () m' →
      readStaticField (Engine.host coreNatives budget) s ⟨w, t⟩ = .ok none m' ∨
      ∃ f mid v, readStaticField (Engine.host coreNatives budget) s ⟨w, t⟩ = .ok (some f) mid ∧
        m'.thread = mid.thread.push v ∧ v.Suits f.decl.type) ∧
    ∀ s t m', getInstanceField s ⟨w, t⟩ = .ok () m' →
      readField false s ⟨w, t⟩ = .ok none m' ∨
      ∃ f operand m₁ m₂, readField false s ⟨w, t⟩ = .ok (some f) m₁ ∧
        pop s m₁ = .ok operand m₂ ∧ (operand = .null ∧
          raise Throwable.nullPointerException none s m₂ = .ok () m' ∨
        ∃ v, m'.thread = m₂.thread.push v ∧ v.Suits f.decl.type) := by
  have typed : w.Typed :=
    ((Bootstrap.defineAll_registered registered blank.registered).typed boot).deeds work
  refine ⟨typed.statics, fun r cls slots found => ?_, fun budget s t m' pushed => ?_,
    fun s t m' pushed => getInstanceField_pushes typed pushed⟩
  · obtain ⟨-, fields, suits⟩ := typed.objects.entry (Heap.object_eq_ok.mp found)
    exact ⟨fields, suits⟩
  · have entered := reentry_seen putStaticField_typed newObject_typed
      (fun _ => coreNatives_abide _) budget
    exact getStaticField_pushes entered typed pushed

theorem fields_typed_narrowed :
    ∃ c ∈ Sample.set.library.classes, c.name = "Gauge" ∧
      ∃ state v, Sample.set.classStates[c.id]? = some state ∧ state.statics[0]? = some v ∧
        v.Suits .byte ∧ Value.same (.int 44) v = true := by
  have blank : World.Blank {} := ⟨rfl, rfl, rfl, rfl⟩
  have boot : Sample.gauged.world.library.Bootstrapped := fun spec listed _ =>
    Bootstrap.defineAll_provides Sample.gauged_registered (by decide +kernel)
      (List.mem_append_left _ listed)
  have work : ReflTransGen World.Deed Sample.gauged.world Sample.set :=
    .single (.inl (.instruction Sample.gauging {} 1))
  obtain ⟨statics, -⟩ := fields_typed blank Sample.gauged_registered boot work
  have newest : Sample.set.library.classes.head?.any (fun c =>
      c.name == "Gauge" && c.fields[0]?.any (·.type == .byte) &&
      ((Sample.set.classStates[c.id]?).bind (·.statics[0]?)).any (Value.same (.int 44))) = true := by
    decide +kernel
  simp only [Option.any_eq_true, Bool.and_eq_true, beq_iff_eq] at newest
  obtain ⟨c, first, ⟨named, f, field, typed⟩, v, held, same⟩ := newest
  have listed : c ∈ Sample.set.library.classes := List.mem_of_head? first
  obtain ⟨state, there, holds⟩ := statics c listed
  rw [there] at held
  exact ⟨c, listed, named, state, v, there, held, typed ▸ holds.suits field held, same⟩

end JavaMachine
