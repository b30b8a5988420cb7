import JavaMachine.Proofs.Assignment
import JavaMachine.Proofs.Guests

/-!
# Arrays of references hold what they may

An array of references has a descriptor, and what it holds is meant to fit the component type that
the descriptor names.  Stores check each element, but copies between arrays trust the two
descriptors, and a copy may stop half-way; arrays of arrays are filled when they are made.  All of
this preserves that every element fits.  For copies it does so because assignability is transitive.

An instruction for primitive elements does not check what it stores, so nothing may store into an
array of references in this way.  A world counts such crossings.
-/

namespace JavaMachine

open Exec
open Relation (ReflTransGen)

namespace World

variable {w w' : World} {descriptor : String} {v : Value}

/-- What an array holds fits its descriptor, if it is an array of references and its descriptor is
one of an array. -/
def Holds (w : World) (a : ArrayEntry) : Prop :=
  a.kind = .reference → a.descriptor.toList.head? = some '[' →
    ∀ v ∈ a.elements, w.Fits a.descriptor v

/-- Every array of references holds what fits its descriptor. -/
def Covariant (w : World) : Prop := ∀ r a, w.heap.array r = .ok a → w.Holds a

/-- What fits an array still fits when every entry stays what it is. -/
theorem Fits.retained (library : w'.library = w.library) (retains : w.heap.Retains w'.heap)
    (fits : w.Fits descriptor v) : w'.Fits descriptor v := by
  rcases fits with null | ⟨name, named, assignable⟩
  · exact .inl null
  · exact .inr ⟨name, retains.typeName named, library ▸ assignable⟩

theorem Holds.retained {a : ArrayEntry} (holds : w.Holds a) (library : w'.library = w.library)
    (retains : w.heap.Retains w'.heap) : w'.Holds a :=
  fun reference bracket v listed => (holds reference bracket v listed).retained library retains

/-! ## Components -/

theorem componentType_eq {s s' : List Char} (bracket : descriptor.toList = '[' :: s)
    (component : Library.componentName? s = some s') :
    (componentType descriptor).toList = s' := by
  simp [componentType, bracket, component]

/-- What fits an array fits every array to which that array is assignable. -/
theorem Fits.of_assignable (rooted : w.library.Rooted) {target : String}
    (bracket : target.toList.head? = some '[')
    (assignable : w.library.isAssignable descriptor target = true)
    (fits : descriptor.toList.head? = some '[' → w.Fits descriptor v) : w.Fits target v := by
  rw [Library.isAssignable_iff] at assignable
  generalize source : descriptor.toList = s, goal : target.toList = t at assignable
  cases assignable with
  | same =>
      have same : descriptor = target := String.toList_inj.mp (source.trans goal.symm)
      subst same
      exact fits bracket
  | components below above assigns =>
      rcases fits (by simp [source]) with null | ⟨name, named, first⟩
      · exact .inl null
      · rw [Library.isAssignable_iff, componentType_eq source below] at first
        refine .inr ⟨name, named, ?_⟩
        rw [Library.isAssignable_iff, componentType_eq goal above]
        exact first.trans rooted assigns
  | array plain => exact absurd (goal ▸ bracket) plain
  | classes _ plain => exact absurd (goal ▸ bracket) plain

/-! ## One change of the memory -/

theorem Stir.crossings_le (h : w.Stir w') : w.crossings ≤ w'.crossings := by
  cases h with
  | beside _ _ _ _ crossings _ => exact Nat.le_of_eq crossings.symm
  | element => exact Nat.le_add_right _ _
  | _ => exact Nat.le_refl _

/-- A change of the memory without a crossing leaves every array with what fits. -/
theorem Stir.covariant (h : w.Stir w') (rooted : w.library.Rooted) (arena : w.heap.Arena)
    (covariant : w.Covariant) (uncrossed : w'.crossings = w.crossings) : w'.Covariant := by
  intro r a there
  refine Holds.retained ?_ h.library_eq (h.retains arena)
  cases h.origin arena there with
  | old found => exact covariant _ a found
  | @filled descriptor =>
      intro (reference : ElementKind.ofArray descriptor = .reference) _ v listed
      rw [Array.eq_of_mem_replicate listed, reference]
      exact .inl rfl
  | characters => exact nofun
  | @nested descriptor inner dimension arrays _ =>
      intro _ _ v listed
      obtain ⟨r, inside, rfl⟩ := Array.mem_map.mp listed
      obtain ⟨a, found, described⟩ := arrays r inside
      have name : w.heap.typeName (.array r) = .ok (String.ofList descriptor) := by
        simp [Heap.typeName, Heap.arrayDescriptor, found, Except.map, described]
      refine .inr ⟨_, name, ?_⟩
      have component : Library.componentName? descriptor = some descriptor := by
        obtain ⟨rest, rfl⟩ := Library.eq_cons_of_head? dimension
        rfl
      rw [Library.isAssignable_iff, componentType_eq (by simp) component]
      simpa using Library.Assigns.same descriptor
  | @stored kind r i operand v a found _ fits crossed _ =>
      intro reference bracket u listed
      rcases Array.mem_or_eq_of_mem_setIfInBounds listed with old | rfl
      · exact covariant r a found reference bracket u old
      · by_cases checked : kind = .reference
        · exact fits checked
        · have crossing : crossing kind a.kind = 1 := if_pos ⟨checked, reference⟩
          omega
  | @copied source dest a b elements read written kind _ fits =>
      intro reference bracket v listed
      rcases fits v listed with old | ⟨moved, allowed⟩
      · exact covariant dest b written reference bracket v old
      · have reference' : a.kind = .reference := kind.trans reference
        rcases allowed reference' with assignable | fits
        · exact .of_assignable rooted bracket assignable fun bracket' =>
            covariant source a read reference' bracket' v moved
        · exact fits

/-! ## What guests do -/

/-- Between two worlds the library is the same, the books of the heap were kept in order, and if there
was no crossing, then all arrays hold what fits if they did before. -/
structure Guards (w w' : World) : Prop where
  /-- The library is the same. -/
  library : w'.library = w.library
  /-- The books of the heap are in order. -/
  arena : w'.heap.Arena
  /-- Crossings are counted and never forgotten. -/
  crossings : w.crossings ≤ w'.crossings
  /-- Without a crossing arrays hold what fits. -/
  covariant : w.library.Rooted → w.Covariant → w'.crossings = w.crossings → w'.Covariant

/-- Seen from a heap with its books in order, arrays were guarded. -/
def Guarded (w w' : World) : Prop := w.heap.Arena → w.Guards w'

theorem Guards.trans {a b c : World} (first : a.Guards b) (second : b.Guards c) : a.Guards c where
  library := second.library.trans first.library
  arena := second.arena
  crossings := Nat.le_trans first.crossings second.crossings
  covariant rooted covariant uncrossed := by
    have up := first.crossings
    have up' := second.crossings
    refine second.covariant (first.library ▸ rooted) (first.covariant rooted covariant ?_) ?_ <;>
      omega

instance : AllowsHost Guarded where
  refl w arena := ⟨rfl, arena, Nat.le_refl _, fun _ covariant _ => covariant⟩
  trans _ _ _ first second arena := (first arena).trans (second (first arena).arena)
  stirs {w w'} stirs arena := by
    have chain := (stirs arena).chain
    clear stirs
    induction chain with
    | refl => exact ⟨rfl, arena, Nat.le_refl _, fun _ covariant _ => covariant⟩
    | tail _ last before =>
        exact before.trans ⟨last.library_eq, last.arena before.arena, last.crossings_le,
          fun rooted => last.covariant rooted before.arena⟩
  beside library _ heap _ crossings arena :=
    { library
      arena := heap ▸ arena
      crossings := Nat.le_of_eq crossings.symm
      covariant := fun _ covariant _ r a found reference bracket v listed =>
        (covariant r a (heap ▸ found) reference bracket v listed).retained library
          (heap ▸ .refl _) }

end World

namespace Exec

theorem setStatic_guarded (f : FieldRef) (v : Value) :
    Keeps (Machine.Seen World.Guarded) (setStatic f v) := by
  intro s m arena
  exact ⟨rfl, arena, Nat.le_refl _, fun _ covariant _ => covariant⟩

theorem newInstance_guarded (cls : LoadedClass) (reserved : Bool) :
    Keeps (Machine.Seen World.Guarded) (newInstance cls reserved) := by
  refine library_keeps.bind fun lib s m => allocate_allowed fun r heap made arena => ?_
  have grown := arena.grown made
  refine ⟨rfl, arena.insert made, Nat.le_refl _, fun _ covariant _ r a found => ?_⟩
  exact (covariant r a (grown.old_array found)).retained rfl grown.retains

end Exec

namespace Sample

/-- The topmost class. -/
def top : LoadedClass := { cls with name := objectName }

/-- A class below it. -/
def low : LoadedClass := { cls with superName := some objectName, id := 1 }

/-- An array for objects, and an object of the lower class. -/
def shelf : World where
  library := ⟨[low, top]⟩
  classStates := #[top.freshState, low.freshState]
  heap :=
    { cells := #[some ⟨0, .array ⟨"[Ljava/lang/Object;", .reference, #[.null]⟩⟩,
        some ⟨1, .object low []⟩]
      live := 2
      made := 2 }

theorem shelf_rooted : shelf.library.Rooted := by
  constructor
  · intro c found
    simp only [shelf, Library.find?, low, top, cls, List.find?] at found
    cases found
    exact ⟨rfl, rfl⟩
  · intro name listed c found
    rcases Library.mem_of_find? found with - | ⟨_, - | ⟨_, ⟨⟩⟩⟩
    · exact ⟨fun s above => (Option.some.inj above).symm, nofun⟩
    · exact ⟨nofun, nofun⟩

theorem shelf_arena : shelf.heap.Arena where
  live := by decide
  nodup := .nil
  empty i := by
    rcases i with _ | _ | i <;> simp [shelf]
  serial {r c} found := by
    obtain ⟨_ | _ | i⟩ := r <;> cases found <;> decide
  distinct {r r' c c'} found found' same := by
    obtain ⟨_ | _ | i⟩ := r <;> cases found <;> obtain ⟨_ | _ | j⟩ := r' <;> cases found' <;>
      first | rfl | cases same

theorem shelf_covariant : shelf.Covariant := by
  rintro ⟨_ | _ | i⟩ a found
  · cases found
    intro _ _ v listed
    obtain rfl : v = .null := by simpa using listed
    exact .inl rfl
  · cases found
  · cases found

/-- A thread in front of the instruction that stores the object. -/
def storing : Thread :=
  { id := 0, frames := [frame [0x53, 0xb1] [] 0], depths := [1], deepest := 1
    operands := #[⟨.array ⟨0⟩, 0⟩, ⟨.int 0, 0⟩, ⟨.object ⟨1⟩, 0⟩] }

end Sample

/-- Array covariance is sound.  In a library in which the topmost class has nothing above it and the
interfaces of arrays nothing but that one, let every array of references hold only null and
references whose types are assignable to the component type of its descriptor.  Then after anything
that guests do, stores, copies that end half-way, clones and arrays of arrays among it, this is so
again, unless an instruction for primitive elements has stored into an array of references. -/
theorem covariance_sound {w w' : World} (rooted : w.library.Rooted) (arena : w.heap.Arena)
    (covariant : w.Covariant) (work : ReflTransGen World.Guest w w')
    (uncrossed : w'.crossings = w.crossings) : w'.Covariant := by
  have step {a b : World} (h : a.Guest b) : a.Guarded b :=
    h.keeps (fun hr => putStaticField_seen hr setStatic_guarded)
      fun hr => newObject_seen hr fun cls => newInstance_guarded cls false
  have guarded : w.Guarded w' := by
    clear uncrossed
    induction work with
    | refl => exact Std.Refl.refl w
    | tail _ last ih => exact IsTrans.trans _ _ _ ih (step last)
  exact (guarded arena).covariant rooted covariant uncrossed

theorem covariance_sound_store :
    let w := ((step (Engine.host coreNatives 1)).after {} ⟨Sample.shelf, Sample.storing⟩).world
    w.Covariant ∧ ∃ a, w.heap.array ⟨0⟩ = .ok a ∧ a.elements = #[.object ⟨1⟩] := by
  refine ⟨covariance_sound Sample.shelf_rooted Sample.shelf_arena Sample.shelf_covariant
    (.single (.instruction Sample.storing {} 1)) ?_, _, rfl, rfl⟩
  decide +kernel

end JavaMachine
