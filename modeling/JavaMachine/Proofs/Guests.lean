import JavaMachine.Proofs.Delivery

/-!
# What guests do to the memory

A world is changed by its threads: they execute instructions, call methods, go on with their frames
and run the natives that the machine brings along.  In between the host changes what it likes beside
the memory.  `World.Guest` is one such piece of work, of any thread and however it ends, and a run
of a whole machine is a sequence of them.

What guests do keeps a relation between worlds that allows the memory to be stirred, if the two
instructions keep it that change the memory behind calls: the one that stores into a static field,
and the one that makes an object.
-/

namespace JavaMachine

open Exec Engine

/-- A relation between worlds that allows the memory to be stirred. -/
class AllowsStirs (W : World → World → Prop) : Prop extends IsPreorder World W where
  /-- The memory may be stirred. -/
  stirs : ∀ {w w' : World}, w.Stirs w' → W w w'

/-- A relation between worlds that also allows the host to change what it likes beside the memory. -/
class AllowsHost (W : World → World → Prop) : Prop extends AllowsStirs W where
  /-- The host may change anything else. -/
  beside : ∀ {w w' : World}, w'.library = w.library → w'.classStates = w.classStates →
    w'.heap = w.heap → w'.fieldMemo = w.fieldMemo → w'.crossings = w.crossings → W w w'

/-- A relation between the worlds of two machines. -/
def Machine.Seen (W : World → World → Prop) (m m' : Machine) : Prop := W m.world m'.world

instance {W : World → World → Prop} [AllowsStirs W] : AllowsCore (Machine.Seen W) where
  refl m := Std.Refl.refl m.world
  trans a b c := IsTrans.trans a.world b.world c.world
  core _ _ stirs _ := AllowsStirs.stirs stirs

instance {W : World → World → Prop} [AllowsStirs W] : AllowsStirring (Machine.Seen W) where
  stirring stirs := AllowsStirs.stirs (W := W) stirs

/-- What a guest does to a world. -/
inductive World.Guest (w : World) : World → Prop
  /-- A thread executes an instruction. -/
  | instruction (t : Thread) (s : Settings) (budget : Nat) :
      Guest w ((step (host coreNatives budget)).after s ⟨w, t⟩).world
  /-- A thread runs a native. -/
  | native (t : Thread) (s : Settings) (budget : Nat) {signature : String} {native : NativeFn}
      (found : coreNatives.find? signature = some native) :
      Guest w ((native (reentry coreNatives budget)).after s ⟨w, t⟩).world
  /-- A thread calls a method. -/
  | call (t : Thread) (s : Settings) (budget : Nat) (cls : LoadedClass) (decl : MethodDecl)
      (args : List Value) :
      Guest w ((Engine.call coreNatives budget cls decl args).after s ⟨w, t⟩).world
  /-- A thread goes on with its frames. -/
  | run (t : Thread) (s : Settings) (budget : Nat) :
      Guest w ((Engine.run coreNatives budget).after s ⟨w, t⟩).world
  /-- The host changes something beside the memory. -/
  | beside {w' : World} (library : w'.library = w.library)
      (states : w'.classStates = w.classStates) (heap : w'.heap = w.heap)
      (memo : w'.fieldMemo = w.fieldMemo) (crossings : w'.crossings = w.crossings) : Guest w w'

section

variable {W : World → World → Prop} [AllowsStirs W] {host : Host}

theorem seen_lax : (Ways.keeping (Machine.Seen W)).Lax (Machine.Seen W) := Ways.keeping_lax id

/-- The ways of computations between whose ends a relation holds of the worlds. -/
abbrev Ways.seeing (W : World → World → Prop) : Ways := .keeping (Machine.Seen W)

namespace Exec

/-- The level of a thread is not part of the world. -/
theorem runLoop_seen (n : Nat) (looping : ∀ level, Goes (.seeing W) (loop host level n)) :
    Goes (.seeing W) (runLoop host n) :=
  runLoop_goes seen_lax
    (fun _ => Keeps.goes fun _ m => (Std.Refl.refl m.world : W m.world m.world)) looping

variable (hr : host.toReentry.Goes (.seeing W))

include hr

/-- Bringing a class into use keeps such a relation. -/
theorem ensureInitialised_seen (cls : LoadedClass) :
    Keeps (Machine.Seen W) (ensureInitialised host cls) :=
  ((initialises_stirring hr).ensure cls).goes.keeps

theorem readStaticField_seen : Keeps (Machine.Seen W) (readStaticField host) :=
  (readStaticField_along (allowsWithin_of_lax seen_lax) (initialises_stirring hr)).goes.keeps

/-- A store into a static field keeps a relation that allows all of them. -/
theorem putStaticField_seen (store : ∀ f v, Keeps (Machine.Seen W) (setStatic f v)) :
    Keeps (Machine.Seen W) (putStaticField host) :=
  (putStaticField_along (allowsWithin_of_lax seen_lax) (initialises_stirring hr)
    fun f v => (store f v).goes).goes.keeps

/-- Making an object keeps a relation that allows objects of every class. -/
theorem newObject_seen (make : ∀ cls, Keeps (Machine.Seen W) (newInstance cls false)) :
    Keeps (Machine.Seen W) (newObject host) :=
  (newObject_along (allowsWithin_of_lax seen_lax) (initialises_stirring hr)
    fun cls => (orOutOfMemory_keeps (make cls)).goes).goes.keeps

end Exec

section

variable
  (put : ∀ {host : Host}, host.toReentry.Goes (.seeing W) →
    Keeps (Machine.Seen W) (putStaticField host))
  (make : ∀ {host : Host}, host.toReentry.Goes (.seeing W) →
    Keeps (Machine.Seen W) (newObject host))

section

variable {natives : Natives} (hn : ∀ n, natives.Abide (Machine.Seen W) (reentry natives n))

include hn

theorem invoke_seen (n : Nat) (hr : (reentry natives n).Goes (.seeing W)) :
    ∀ cls decl, Goes (.seeing W) (invoke (Engine.host natives n) cls decl) :=
  invoke_goes seen_lax (hn n) hr

include put make

theorem uses_seen (n : Nat) (hr : (reentry natives n).Goes (.seeing W)) :
    UsesGo (.seeing W) (Engine.host natives n) where
  getStatic := (getStaticField_along (allowsWithin_of_lax seen_lax) (initialises_stirring hr)).goes
  putStatic := (put hr).goes
  invokeStatic := (invokeStatic_along (allowsWithin_of_lax seen_lax) (initialises_stirring hr)
    fun cls decl => (invoke_seen hn n hr cls decl).ready fun _ _ => trivial).goes
  newObject := (make hr).goes

/-- Calls and runs keep a relation between worlds. -/
theorem reentry_seen (n : Nat) : (reentry natives n).Goes (.seeing W) :=
  goes seen_lax hn (uses_seen put make hn) (fun _ => (record_stirring _).goes)
    (fun _ n => runLoop_seen n) n

/-- An instruction keeps a relation between worlds. -/
theorem step_seen (n : Nat) : Keeps (Machine.Seen W) (step (Engine.host natives n)) :=
  have entered := reentry_seen put make hn n
  (step_goes seen_lax (invoke_seen hn n entered) (uses_seen put make hn n entered)).keeps

end

include put make

/-- What a guest does keeps a relation between worlds, unless it is a change beside the memory. -/
theorem World.Guest.keeps_or_beside {w w' : World} (h : w.Guest w') :
    W w w' ∨ w'.library = w.library ∧ w'.classStates = w.classStates ∧ w'.heap = w.heap ∧
      w'.fieldMemo = w.fieldMemo ∧ w'.crossings = w.crossings := by
  have abide : ∀ n, coreNatives.Abide (Machine.Seen W) (reentry coreNatives n) :=
    fun _ => coreNatives_abide _
  have entered := reentry_seen put make abide
  cases h with
  | instruction t s n => exact .inl (step_seen put make abide n s ⟨w, t⟩)
  | native t s n found =>
      exact .inl (((coreNatives_abide _).goes seen_lax (entered n) found).keeps s ⟨w, t⟩)
  | call t s n cls decl args => exact .inl (((entered n).call cls decl args).keeps s ⟨w, t⟩)
  | run t s n => exact .inl ((entered n).run.keeps s ⟨w, t⟩)
  | beside library states heap memo crossings =>
      exact .inr ⟨library, states, heap, memo, crossings⟩

end

/-- What guests do keeps a relation between worlds that allows the host to do its part. -/
theorem World.Guest.keeps {W : World → World → Prop} [AllowsHost W]
    (put : ∀ {host : Host}, host.toReentry.Goes (.seeing W) →
      Keeps (Machine.Seen W) (putStaticField host))
    (make : ∀ {host : Host}, host.toReentry.Goes (.seeing W) →
      Keeps (Machine.Seen W) (newObject host)) {w w' : World} (h : w.Guest w') : W w w' := by
  rcases h.keeps_or_beside put make with kept | ⟨library, states, heap, memo, crossings⟩
  · exact kept
  · exact AllowsHost.beside library states heap memo crossings

end

end JavaMachine
