import JavaMachine.Proofs.Initialisation
import JavaMachine.Proofs.Outcomes

/-!
# What bringing a class into use answers

An instruction that needs a class asks for it and looks at nothing but the answer.  If the class
cannot be used, the instruction ends there and leaves the rest to its run, which handles the
exception that is pending; so there has to be one.  `Engine.ensureInitialised_reports` says that
there is one exactly then, and what has become of the class.

What is pending and the state of the class are two matters.  `Machine.BearsOut` says what an answer
promises about the former.  It is carried through the superclasses and the calls of their
initialisers, because the outcome of a call says what it leaves pending.  Nothing has to be pending
after an initialiser that was halted, or after one that was called outside all runs, whose exception
was delivered.  The former leaves the machine halted (`Engine.halts`), and the latter is never so
for an instruction, which is performed inside a run (`Engine.begun_inside`).
-/

namespace JavaMachine

open Relation (ReflTransGen)

/-- A run is in progress, and nothing is pending. -/
def Machine.Poised (m : Machine) : Prop := m.thread.level ≠ 0 ∧ m.Clear

/-- What the answer whether something could be done promises, if the machine was poised.  It still
is when it could; otherwise it is halted, or an exception is pending. -/
def Machine.BearsOut (m : Machine) : Bool → Prop
  | true => m.Poised
  | false => m.world.halted = true ∨ ¬m.Clear

/-- Whether a call returned. -/
def Invocation.isReturned : Invocation → Bool
  | .returned _ => true
  | .threw _ | .halted => false

theorem Machine.SameThreadMonitors.poised {m m' : Machine} (h : m.SameThreadMonitors m')
    (poised : m.Poised) : m'.Poised := by
  rwa [Poised, Clear, h.thread]

theorem Machine.SameThreadMonitors.bearsOut {m m' : Machine} {done : Bool}
    (h : m.SameThreadMonitors m')
    (bears : m.BearsOut done) : m'.BearsOut done := by
  cases done with
  | true => exact h.poised bears
  | false =>
      refine bears.imp h.halted fun pending => ?_
      rwa [Clear, h.thread]

/-! ## Halted calls -/

/-- Calls and runs that answer that the machine is halted leave it halted. -/
structure Reentry.Halts (r : Reentry) : Prop where
  /-- Calls do. -/
  call : ∀ cls decl args s m m', r.call cls decl args s m = .ok .halted m' →
    m'.world.halted = true
  /-- Runs do. -/
  run : ∀ s m m', r.run s m = .ok .halted m' → m'.world.halted = true

namespace Exec

variable {host : Host} {level : Nat} {s : Settings} {m m' : Machine} {cls : LoadedClass}

/-- Handling an exception does not halt a run. -/
theorem Unwound.not_halted {e : Handle} {name : String} {o : Option RunOutcome}
    (h : Unwound host e name level s m o m') : o ≠ some .halted := by
  induction h with
  | caught => simp
  | ended => simp
  | delivered _ _ _ delivered =>
      rw [deliverUncaught_ok delivered]
      simp
  | left _ _ _ ih => exact ih

theorem turn_halts (h : turn host level s m = .ok (some .halted) m') :
    m'.world.halted = true := by
  generalize answer : some RunOutcome.halted = o at h
  cases turn_ok h with
  | halted _ halted => exact halted
  | @settled _ _ flow => cases flow <;> cases answer
  | handled _ _ _ handled =>
      obtain ⟨_, unwound⟩ := handleException_ok handled
      exact absurd answer.symm unwound.not_halted

theorem runLoop_halts {n : Nat} (h : runLoop host n s m = .ok .halted m') :
    m'.world.halted = true := by
  obtain ⟨mid, looped, rfl⟩ := runLoop_ok h
  obtain ⟨last, -, final⟩ := loop_ok looped
  have halted : mid.world.halted = true := turn_halts final
  exact halted

/-- Only a halted run makes a halted call. -/
theorem conclude_halted {decl : MethodDecl} {base : Nat} {o : RunOutcome}
    (h : conclude decl base o s m = .ok .halted m') : o = .halted ∧ m' = m := by
  cases conclude_cases h with
  | halted => exact ⟨rfl, rfl⟩

theorem execute_halts (halts : host.toReentry.Halts) {decl : MethodDecl} {args : List Value}
    (h : execute host cls decl args s m = .ok .halted m') : m'.world.halted = true := by
  obtain ⟨-, events, o, last, d, outer, ran, -, concluded⟩ := execute_ok h
  obtain ⟨rfl, rfl⟩ := conclude_halted concluded
  show last.world.halted = true
  generalize answer : RunOutcome.halted = o at ran
  cases ran with
  | run _ ended =>
      subst answer
      exact halts.run _ _ _ ended
  | done => cases answer
  | threw => cases answer
  | uncaught _ _ _ delivered =>
      rw [deliverUncaught_ok delivered] at answer
      cases answer

/-! ## What the answer promises -/

theorem Along.poised {α : Type} {x : Exec α} (hx : Keeps Machine.SameThreadMonitors x) :
    Along .any Machine.Poised x fun _ => Machine.Poised :=
  .of_keeps hx (fun _ _ _ _ => trivial) (fun _ _ _ _ _ => trivial)
    fun _ _ _ _ poised h => (hx.of_ok h).poised poised

/-- An exception is pending when one was raised. -/
theorem raise_bearsOut {P : Machine → Prop} (className : String) (message : Option String)
    [Throwable.Raised className] :
    Along .any P (raise className message) fun _ m => m.BearsOut false :=
  .of_keeps (R := Machine.Core) (raise_keeps _ _) (fun _ _ _ _ => trivial)
    (fun _ _ _ _ _ => trivial) fun _ _ _ _ _ raised => .inr (raise_pending raised)

section Answers

variable (truthful : host.toReentry.Truthful) (halts : host.toReentry.Halts)
  (sameLevel : host.toReentry.Goes (.lasting Machine.SameLevel))

include truthful halts sameLevel

/-- A call inside a run bears out whether it returned. -/
theorem call_bearsOut (decl : MethodDecl) (args : List Value) :
    Along .any Machine.Poised (host.call cls decl args) fun i m => m.BearsOut i.isReturned := by
  rintro s m ⟨inside, -⟩
  refine ⟨fun i m' called => ⟨.single trivial, ?_⟩, fun _ _ _ => ⟨m, .refl, trivial⟩⟩
  have leaves := truthful.call _ _ _ _ _ _ _ called
  cases i with
  | returned v =>
      have level : m'.thread.level = m.thread.level :=
        (sameLevel.call cls decl args).lasts_ok called
      exact ⟨level ▸ inside, leaves⟩
  | threw e =>
      -- Outside all runs the exception would have been delivered.
      rcases leaves with ⟨-, pending⟩ | ⟨outside, -⟩
      · exact .inr (by simp [Machine.Clear, pending])
      · exact absurd inside outside
  | halted => exact .inl (halts.call _ _ _ _ _ _ called)

theorem runInitialiser_bearsOut (cls : LoadedClass) :
    Along .any Machine.Poised (runInitialiser host cls) fun ready m => m.BearsOut ready := by
  unfold runInitialiser
  split
  · exact .pure true fun _ poised => poised
  · refine (Along.poised (report_keeps _)).bind fun _ => ?_
    refine (Along.poised library_keeps).bind fun _ => (Along.poised world_keeps).bind fun _ => ?_
    refine (Along.poised (record_sameThreadMonitors _)).bind fun _ => ?_
    have calling (decl : MethodDecl) : Along .any Machine.Poised (uncounted (host.call cls decl []))
        fun i m => m.BearsOut i.isReturned := by
      refine (Along.poised world_keeps).bind fun before => ?_
      refine .tidied (R := Machine.SameThreadMonitors)
        (call_bearsOut truthful halts sameLevel decl [])
        (fun result s m => ?_) (fun _ _ _ _ => trivial) (fun _ _ _ _ _ _ _ => trivial)
        fun _ _ _ bears same => same.bearsOut bears
      exact ⟨{ m with world := { m.world with refusals := before.refusals } },
        AllowsWorld.world (.of_eq rfl rfl rfl rfl rfl rfl rfl rfl rfl id), rfl⟩
    refine (calling _).bind fun i => ?_
    cases i with
    | returned v => exact .pure true fun _ bears => bears
    | threw e => exact .pure false fun _ bears => bears
    | halted => exact .pure false fun _ bears => bears

/-- By induction on the superclasses: a class whose superclass cannot be used bears out what that
did, and any other one what its own initialiser did. -/
theorem ensureInitialisedWithin_bearsOut : ∀ (n : Nat) (cls : LoadedClass),
    Along .any Machine.Poised (ensureInitialisedWithin host n cls) fun ready m => m.BearsOut ready
  | 0, _ => .of_keeps (R := Machine.SameThreadMonitors) (.throw _) (fun _ _ _ _ => trivial)
      (fun _ _ _ _ _ => trivial) fun _ _ _ _ _ h => nomatch h
  | n + 1, cls => by
      refine (Along.poised (beginInitialisation_sameThreadMonitors cls.id)).bind fun action => ?_
      cases action with
      | ready => exact .pure true fun _ poised => poised
      | failed => exact (raise_bearsOut _ _).bind fun _ => .pure false fun _ bears => bears
      | run =>
          -- The initialisation ends without touching the thread or the halt flag, so what its
          -- initialisers promised still holds.
          refine Along.tidied (R := Machine.SameThreadMonitors) ?_ ?_ (fun _ _ _ _ => trivial)
            (fun _ _ _ _ _ _ _ => trivial) fun _ _ _ bears same => same.bearsOut bears
          · refine (Along.poised library_keeps).bind fun lib => ?_
            split
            · refine (ensureInitialisedWithin_bearsOut n _).bind fun ready => ?_
              cases ready with
              | true => exact runInitialiser_bearsOut truthful halts sameLevel cls
              | false => exact .pure false fun _ bears => bears
            · exact runInitialiser_bearsOut truthful halts sameLevel cls
          · intro result s m
            obtain ⟨events, finished⟩ := finishing_run (s := s) (m := m) cls result
            refine ⟨_, ?_, finished⟩
            exact ⟨⟨rfl, id⟩, rfl⟩

theorem ensureInitialised_bearsOut (cls : LoadedClass) :
    Along .any Machine.Poised (ensureInitialised host cls) fun ready m => m.BearsOut ready :=
  (Along.poised library_keeps).bind fun _ =>
    ensureInitialisedWithin_bearsOut truthful halts sameLevel _ cls

end Answers

/-! ## The state of the class -/

theorem beginInitialisation_failed {id : Nat}
    (h : beginInitialisation id s m = .ok .failed m') :
    m.world.initState id = .erroneous ∧ m' = m := by
  rw [beginInitialisation, bind_of_ok thread_run, bind_of_ok (initState_run _)] at h
  cases state : m.world.initState id with
  | uninitialised =>
      rw [state] at h
      cases h
  | initialising owner =>
      rw [state] at h
      dsimp only at h
      split at h
      · cases h
      · cases h
  | initialised =>
      rw [state] at h
      cases h
  | erroneous =>
      rw [state] at h
      cases h
      exact ⟨rfl, rfl⟩

/-- A class that cannot be used is erroneous: it was before, or its initialisation has failed. -/
theorem ensureInitialisedWithin_refused {n : Nat} (placed : cls.id < m'.world.classStates.size)
    (h : ensureInitialisedWithin host n cls s m = .ok false m') :
    m'.world.initState cls.id = .erroneous := by
  cases n with
  | zero => cases h
  | succ n =>
      obtain ⟨action, mid, begun, rest⟩ := bind_eq_ok h
      cases action with
      | ready => cases rest
      | failed =>
          obtain ⟨state, rfl⟩ := beginInitialisation_failed begun
          obtain ⟨_, last, raised, rest⟩ := bind_eq_ok rest
          cases rest
          have core : mid.Core m' := (raise_keeps _ _).of_ok raised
          rw [core.world.inits, state]
      | run =>
          obtain ⟨result, a, -, rest⟩ := bind_eq_ok rest
          obtain ⟨events, finished⟩ := finishing_run (s := s) (m := a) cls result
          obtain ⟨rfl, rfl⟩ := ofExcept_eq_ok (finished.symm.trans rest)
          refine World.initState_moving_self ?_ .erroneous
          simpa [World.moving] using placed

end Exec

namespace Sample

/-- A class whose initialiser throws null. -/
def broken : LoadedClass := { base with methods := [{ clinit "A" with code := ⟨#[0x01, 0xbf]⟩ }] }

/-- The class of the exceptions that are raised instead of null. -/
def nulls : LoadedClass := { cls with name := Throwable.nullPointerException, id := 2 }

/-- A thread inside a run.  A class and its superclass, whose initialiser throws, are declared. -/
def unready : Machine where
  world :=
    { library := ⟨[nulls, derived, broken]⟩
      classStates := #[broken.freshState, derived.freshState, nulls.freshState] }
  thread := { id := 0, level := 1 }

theorem unready_sane : unready.world.Sane where
  states := rfl
  places := by simp [unready, broken, base, derived, nulls, cls]
  fields := by simp [unready, broken, base, derived, nulls, cls]
  memo key f h := nomatch h

/-- An answer, with whether the machine is halted then. -/
def answer (x : Exec Bool) (m : Machine) : Option (Bool × Bool) :=
  match x {} m with
  | .ok ready m' => some (ready, m'.world.halted)
  | .error .. => none

theorem answer_eq_some {x : Exec Bool} {m : Machine} {ready halted : Bool}
    (h : answer x m = some (ready, halted)) :
    ∃ m', x {} m = .ok ready m' ∧ m'.world.halted = halted := by
  unfold answer at h
  split at h
  next ready' m' run =>
    cases h
    exact ⟨m', run, rfl⟩
  next => cases h

end Sample

namespace Engine

open Exec

variable {natives : Natives}

theorem halts : ∀ n, (reentry natives n).Halts
  | 0 => by
      constructor
      · intro cls decl args s m m' h
        rw [reentry_call_zero] at h
        cases h
      · intro s m m' h
        rw [reentry_run_zero] at h
        cases h
  | n + 1 => by
      constructor
      · intro cls decl args s m m' h
        rw [reentry_call_succ] at h
        exact execute_halts (halts n) h
      · intro s m m' h
        rw [reentry_run_succ] at h
        exact runLoop_halts h

/-- The turns of a run are taken at one level. -/
theorem rounds_level (hn : ∀ n, natives.Abide Machine.SameLevelDeliveries (reentry natives n))
    {n level : Nat} {s : Settings} {m last : Machine}
    (rounds : ReflTransGen (Round (host natives n) level s) m last) :
    last.thread.level = m.thread.level := by
  have calls := sameLevel hn n
  have turning : Goes (.lasting Machine.SameLevel) (turn (host natives n) level) :=
    turn_goes sameLevel_lax
      (step_goes sameLevel_lax (invoke_goes sameLevel_lax (hn n) calls)
        (uses_sameLevel (hn n) calls))
      fun _ _ =>
        deliverUncaught_goes sameLevel_lax calls (fun _ => (modifyWorld_sameLevel _).lasts) _
  induction rounds with
  | refl => rfl
  | tail _ round ih => exact Eq.trans (turning.lasts_ok round) ih

/-- An instruction is performed inside a run, whose turns are taken above the level at which it was
begun. -/
theorem begun_inside (hn : ∀ n, natives.Abide Machine.SameLevelDeliveries (reentry natives n))
    {n : Nat} {s : Settings} {m last b : Machine}
    (rounds : ReflTransGen (Round (host natives n) (m.thread.level + 1) s)
      (m.atLevel (m.thread.level + 1)) last) (begun : Begun last b) :
    b.thread.level ≠ 0 := by
  rw [begun.within.level, rounds_level hn rounds]
  exact Nat.succ_ne_zero _

/-- Bringing a class into use reports what is pending.

Let a class of a sane world be brought into use inside a run, while nothing is pending, and let
nobody have halted the machine by the end.  If the class can be used, nothing is pending then, and
the class is initialised or the thread is initialising it.  If it cannot, an exception is pending
and the class is erroneous. -/
theorem ensureInitialised_reports
    (level : ∀ n, natives.Abide Machine.SameLevelDeliveries (reentry natives n))
    (classes : ∀ n, natives.Abide Machine.SameIdClasses (reentry natives n)) {n : Nat}
    {cls : LoadedClass} {s : Settings} {m m' : Machine} {ready : Bool} (sane : m.world.Sane)
    (known : cls ∈ m.world.library.classes) (inside : m.thread.level ≠ 0)
    (clear : m.thread.pending = none)
    (run : ensureInitialised (host natives n) cls s m = .ok ready m')
    (running : m'.world.halted = false) :
    (ready = true → m'.thread.pending = none ∧ (m'.world.initState cls.id = .initialised ∨
      m'.world.initState cls.id = .initialising m.thread.id)) ∧
    (ready = false → m'.thread.pending ≠ none ∧ m'.world.initState cls.id = .erroneous) := by
  have bears : m'.BearsOut ready :=
    ((ensureInitialised_bearsOut (truthful level n) (halts n) (sameLevel level n) cls).of_ok
      ⟨inside, clear⟩ run).2
  have readies : Readies (ensureInitialised (host natives n)) :=
    ensureInitialised_readies (lawful classes n)
  have readied := readies cls s m sane known
  have lawful := readied.lawful
  rw [after_of_ok run] at lawful
  obtain ⟨same, lawful⟩ := lawful sane
  constructor
  · rintro rfl
    have usable := readied.usable m' run
    rw [Machine.Usable, same] at usable
    exact ⟨bears.2, usable⟩
  · rintro rfl
    have placed : cls.id < m'.world.classStates.size :=
      lawful.sane.placed (by rwa [lawful.library])
    refine ⟨bears.resolve_left (by simp [running]), ?_⟩
    exact ensureInitialisedWithin_refused placed run

/-- The initialiser of the superclass throws, so the class cannot be used, and the exception is
pending. -/
theorem ensureInitialised_reports_broken : ∃ m',
    ensureInitialised (host coreNatives 5) Sample.derived {} Sample.unready = .ok false m' ∧
      m'.thread.pending ≠ none ∧ m'.world.initState Sample.derived.id = .erroneous := by
  have answers : Sample.answer (ensureInitialised (host coreNatives 5) Sample.derived)
      Sample.unready = some (false, false) := by decide +kernel
  obtain ⟨m', run, running⟩ := Sample.answer_eq_some answers
  have reports := ensureInitialised_reports (fun _ => coreNatives_abide _)
    (fun _ => coreNatives_abide _) Sample.unready_sane (by simp [Sample.unready])
    (by simp [Sample.unready]) rfl run running
  exact ⟨m', run, reports.2 rfl⟩

end Engine

end JavaMachine
