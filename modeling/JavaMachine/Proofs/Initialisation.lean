import JavaMachine.Proofs.Courses
import JavaMachine.Proofs.Delivery

/-!
# Classes are initialised once

Bringing a class into use calls back into the machine, and whatever runs there may bring any class
into use, the one in question included.  The relation that carries the induction over the engine is
`Machine.Lawful`: every class had a course, which leaves a class alone that somebody has claimed.
A thread that has claimed a class therefore finds it as it left it behind each call, however the
call ended, and may end the initialisation.

The claim, the call of the initialiser and the end of the initialisation are no lawful steps by
themselves.  `Machine.Claims` takes a machine from the claim to the end, in the middle of which the
superclass is brought into use and the initialiser is called.
-/

namespace JavaMachine

open Relation (ReflTransGen)

/-- Seen from a sane world, the thread is the same one and every class had a course. -/
def Machine.Lawful (m m' : Machine) : Prop :=
  m.world.Sane → m'.thread.id = m.thread.id ∧ m.world.Lawful m'.world

/-- The class is initialised, or the thread is initialising it. -/
def Machine.Usable (id : Nat) (m : Machine) : Prop :=
  m.world.initState id = .initialised ∨ m.world.initState id = .initialising m.thread.id

instance : AllowsCore Machine.Lawful where
  refl _ sane := ⟨rfl, .refl sane⟩
  trans _ _ _ first second := by
    intro sane
    obtain ⟨same, lawful⟩ := first sane
    obtain ⟨same', lawful'⟩ := second lawful.sane
    exact ⟨same'.trans same, lawful.trans lawful'⟩
  core core _ _ _ sane := ⟨core.id, .of_sameClasses sane core.world⟩

/-- The threads of two machines are the same one, and the classes are the same.  A native can do
nothing else by itself. -/
structure Machine.SameIdClasses (m m' : Machine) : Prop where
  /-- The thread is the same one. -/
  id : m'.thread.id = m.thread.id
  /-- The classes and the history are the same. -/
  world : m.world.SameClasses m'.world

instance : AllowsCore Machine.SameIdClasses where
  refl m := ⟨rfl, .refl m.world⟩
  trans _ _ _ first second := ⟨second.id.trans first.id, first.world.trans second.world⟩
  core core _ _ _ := ⟨core.id, core.world⟩

instance : AllowsMemory Machine.SameIdClasses where
  memory sameClasses := ⟨rfl, sameClasses.toSameClasses⟩

theorem Machine.Core.usable {m m' : Machine} {id : Nat} (h : m.Core m') (usable : m.Usable id) :
    m'.Usable id := by
  rw [Usable, h.world.inits, h.id]
  exact usable

theorem lawful_lax : (Ways.keeping Machine.Lawful).Lax Machine.SameIdClasses :=
  Ways.keeping_lax fun same sane => ⟨same.id, .of_sameClasses sane same.world⟩

/-! ## From the claim to the end -/

/-- The state in which an initialisation ends. -/
def InitState.outcome (succeeded : Bool) : InitState :=
  if succeeded then .initialised else .erroneous

/-- The thread has claimed a class since the first machine, in which it was uninitialised, and the
history tells since then about it what is given. -/
structure Machine.Claims (id : Nat) (entries : List Occurrence) (m m' : Machine) : Prop where
  /-- The thread is the same one. -/
  same : m'.thread.id = m.thread.id
  /-- It has claimed the class. -/
  claimed : m'.world.initState id = .initialising m.thread.id
  /-- Everything else is lawful. -/
  amid : World.Amid id entries m.world m'.world

namespace Machine.Claims

variable {id : Nat} {entries : List Occurrence} {m a b : Machine}

/-- Nothing lawful takes a claim away. -/
theorem lawful (h : m.Claims id entries a) (next : a.Lawful b) : m.Claims id entries b := by
  obtain ⟨same, lawful⟩ := next h.amid.sane
  have claimed : a.world.initState id ≠ .uninitialised := by simp [h.claimed]
  exact ⟨same.trans h.same, (lawful.still claimed).trans h.claimed, h.amid.lawful lawful claimed⟩

/-- Unless the initialisation ends, the class stays claimed. -/
theorem unended (h : m.Claims id entries a) (fresh : m.world.initState id = .uninitialised)
    (course : Course id .uninitialised entries (.initialising m.thread.id)) : m.Lawful a := by
  refine fun _ => ⟨h.same, h.amid.closed ?_⟩
  rw [fresh, h.claimed]
  exact course

/-- The initialisation ends. -/
theorem ended (h : m.Claims id entries a) (fresh : m.world.initState id = .uninitialised)
    (placed : id < a.world.classStates.size)
    (course : Course id .uninitialised entries (.initialising m.thread.id)) (succeeded : Bool) :
    m.Lawful { a with world := a.world.moving id (.outcome succeeded) } := by
  refine fun _ => ⟨h.same, (h.amid.moving _).closed ?_⟩
  rw [World.initState_moving_self placed, fresh, h.claimed]
  cases succeeded with
  | true => exact .succeeded course
  | false => exact .failed course

end Machine.Claims

namespace Exec

variable {α : Type} {host : Host} {s : Settings} {m : Machine}

theorem record_run (o : Occurrence) :
    record o s m = .ok () { m with world := m.world.noting o } := rfl

theorem initState_run (id : Nat) : initState id s m = .ok (m.world.initState id) m := rfl

theorem setInitState_run (id : Nat) (i : InitState) :
    setInitState id i s m = .ok () { m with world := m.world.moving id i } := rfl

/-! ## Bringing a class into use -/

/-- A class without an initialiser is initialised at once. -/
theorem runInitialiser_none {cls : LoadedClass} (none : cls.method? "<clinit>" "()V" = none) :
    runInitialiser host cls s m = .ok true m := by
  rw [runInitialiser, none]
  rfl

/-- The initialiser is called at most once, and the class is still claimed then. -/
theorem runInitialiser_claims {cls : LoadedClass} {entries : List Occurrence} {a : Machine}
    (hr : host.toReentry.Goes (.keeping Machine.Lawful)) (h : m.Claims cls.id entries a)
    (known : cls ∈ a.world.library.classes)
    (first : ∀ c, cls.superName.bind a.world.library.find? = some c →
      a.world.initState c.id ≠ .uninitialised) :
    ∃ more, (more = [] ∨ ∃ superclass, more = [.started cls.id superclass]) ∧
      m.Claims cls.id (more ++ entries) ((runInitialiser host cls).after s a) := by
  cases found : cls.method? "<clinit>" "()V" with
  | none =>
      rw [after_of_ok (runInitialiser_none found)]
      exact ⟨[], .inl rfl, h⟩
  | some decl =>
      obtain ⟨events, reported⟩ := report_run (s := s) (m := a) (.initialising cls.name)
      let b : Machine := { a with world := { a.world with events } }
      let superclass := (cls.superName.bind b.world.library.find?).map (b.world.initState ·.id)
      let noted : Machine := { b with world := b.world.noting (.started cls.id superclass) }
      have claims : m.Claims cls.id (.started cls.id superclass :: entries) noted := by
        have claims := h.lawful (b := b) (AllowsCore.sameClasses rfl
          ⟨rfl, rfl, fun _ => rfl, fun _ _ => .inl, rfl⟩ id (.beside rfl rfl rfl rfl rfl rfl rfl))
        refine ⟨claims.same, claims.claimed, claims.amid.noting ⟨?_, cls, known, rfl, ?_⟩⟩
        · intro unready
          obtain ⟨c, above, state⟩ := Option.map_eq_some_iff.mp unready
          exact first c above state
        · exact Option.isSome_map
      have run : ∃ f : Invocation → Exec Bool, (∀ i, Keeps Machine.Lawful (f i)) ∧
          runInitialiser host cls s a = (uncounted (host.call cls decl []) >>= f) s noted := by
        rw [runInitialiser, found]
        simp only [bind_of_ok reported, bind_of_ok library_run, bind_of_ok world_run,
          bind_of_ok (record_run _)]
        refine ⟨_, fun i => ?_, rfl⟩
        cases i <;> exact .pure _
      obtain ⟨f, answers, run⟩ := run
      have calling : Keeps Machine.Lawful (uncounted (host.call cls decl []) >>= f) :=
        (uncounted_keeps (hr.call cls decl []).keeps).bind answers
      have same : (runInitialiser host cls).after s a =
          (uncounted (host.call cls decl []) >>= f).after s noted := by
        simp only [after, run]
      refine ⟨[.started cls.id superclass], .inr ⟨superclass, rfl⟩, ?_⟩
      rw [same]
      exact claims.lawful (calling s noted)

/-- What bringing a class into use comes to: it is lawful, however it ends, and a class that can be
used is initialised, or the thread is initialising it. -/
structure Readied (cls : LoadedClass) (x : Exec Bool) (s : Settings) (m : Machine) : Prop where
  /-- It is lawful. -/
  lawful : m.Lawful (x.after s m)
  /-- Then the class can be used. -/
  usable : ∀ m', x s m = .ok true m' → m'.Usable cls.id

namespace Readied

variable {cls : LoadedClass} {x : Exec Bool} {m' : Machine}

theorem of_ok {ready : Bool} (run : x s m = .ok ready m') (lawful : m.Lawful m')
    (usable : ready = true → m'.Usable cls.id) : Readied cls x s m := by
  refine ⟨after_of_ok run ▸ lawful, fun m'' h => ?_⟩
  rw [run] at h
  cases h
  exact usable rfl

theorem of_error {stop : Stop} (run : x s m = .error stop m') (lawful : m.Lawful m') :
    Readied cls x s m := by
  refine ⟨after_of_error run ▸ lawful, fun m'' h => ?_⟩
  rw [run] at h
  cases h

end Readied

/-- Bringing a class into use readies every class of a sane world. -/
def Readies (x : LoadedClass → Exec Bool) : Prop :=
  ∀ (cls : LoadedClass) (s : Settings) (m : Machine), m.world.Sane →
    cls ∈ m.world.library.classes → Readied cls (x cls) s m

/-- The initialisers behind the claim of a class: that of the superclass, then its own. -/
def initialisers (host : Host) (n : Nat) (cls : LoadedClass) : Exec Bool := do
  match cls.superName.bind (← library).find? with
  | some c => if ← ensureInitialisedWithin host n c then runInitialiser host cls else return false
  | none => runInitialiser host cls

/-- Ends the initialisation of a class with what its initialisers came to. -/
def finishing (cls : LoadedClass) (result : Except Fault Bool) : Exec Bool := do
  finishInitialisation cls.id (result.toOption.getD false)
  report (.initialisationFinished cls.name (result.toOption.getD false))
  ofExcept result

theorem finishing_run (cls : LoadedClass) (result : Except Fault Bool) :
    ∃ events, finishing cls result s m = ofExcept result s
      { m with world :=
        { (m.world.moving cls.id (.outcome (result.toOption.getD false))) with events } } := by
  obtain ⟨events, reported⟩ := report_run (s := s)
    (m := { m with world := m.world.moving cls.id (.outcome (result.toOption.getD false)) })
    (.initialisationFinished cls.name (result.toOption.getD false))
  refine ⟨events, ?_⟩
  rw [finishing, finishInitialisation, bind_of_ok (setInitState_run _ _)]
  exact bind_of_ok reported

/-- Behind the claim of a class its initialiser is called at most once, after the superclass was
brought into use, and the class is still claimed then. -/
theorem initialisers_claims {cls : LoadedClass} {n : Nat} {a : Machine}
    (hr : host.toReentry.Goes (.keeping Machine.Lawful))
    (above : Readies (ensureInitialisedWithin host n))
    (h : m.Claims cls.id [.moved cls.id .uninitialised (.initialising m.thread.id)] a)
    (known : cls ∈ a.world.library.classes) :
    ∃ entries, Course cls.id .uninitialised entries (.initialising m.thread.id) ∧
      m.Claims cls.id entries ((initialisers host n cls).after s a) := by
  have own {b : Machine}
      (h : m.Claims cls.id [.moved cls.id .uninitialised (.initialising m.thread.id)] b)
      (known : cls ∈ b.world.library.classes)
      (first : ∀ c, cls.superName.bind b.world.library.find? = some c →
        b.world.initState c.id ≠ .uninitialised) :
      ∃ entries, Course cls.id .uninitialised entries (.initialising m.thread.id) ∧
        m.Claims cls.id entries ((runInitialiser host cls).after s b) := by
    obtain ⟨more, rfl | ⟨superclass, rfl⟩, claims⟩ := runInitialiser_claims hr h known first
    · exact ⟨_, .claimed _, claims⟩
    · exact ⟨_, .started _ superclass, claims⟩
  cases found : cls.superName.bind a.world.library.find? with
  | none =>
      have run : (initialisers host n cls).after s a = (runInitialiser host cls).after s a := by
        simp only [after, initialisers, bind_of_ok library_run, found]
      rw [run]
      exact own h known (by simp [found])
  | some c =>
      have listed : c ∈ a.world.library.classes := by
        obtain ⟨name, -, found⟩ := Option.bind_eq_some_iff.mp found
        exact Library.mem_of_find? found
      obtain ⟨lawful, usable⟩ := above c s a h.amid.sane listed
      have claims := h.lawful lawful
      cases ran : ensureInitialisedWithin host n c s a with
      | error stop b =>
          have run : (initialisers host n cls).after s a = b := by
            simp only [after, initialisers, bind_of_ok library_run, found, bind_of_error ran]
          rw [after_of_error ran] at claims
          rw [run]
          exact ⟨_, .claimed _, claims⟩
      | ok ready b =>
          rw [after_of_ok ran] at claims lawful
          cases ready with
          | false =>
              have run : (initialisers host n cls).after s a = b := by
                simp [after, initialisers, bind_of_ok library_run, found, bind_of_ok ran]
              rw [run]
              exact ⟨_, .claimed _, claims⟩
          | true =>
              have run : (initialisers host n cls).after s a =
                  (runInitialiser host cls).after s b := by
                simp [after, initialisers, bind_of_ok library_run, found, bind_of_ok ran]
              have library := (lawful h.amid.sane).2.library
              rw [run]
              refine own claims (by rwa [library]) fun d same => ?_
              rw [library, found] at same
              cases same
              rcases usable b ran with done | mine
              · simp [done]
              · simp [mine]

section Ensure

variable {cls : LoadedClass} (n : Nat)

/-- A class that is initialised, or that the thread is initialising, is ready at once. -/
theorem ensureInitialisedWithin_usable (usable : m.Usable cls.id) :
    ensureInitialisedWithin host (n + 1) cls s m = .ok true m := by
  have ready : beginInitialisation cls.id s m = .ok .ready m := by
    rw [beginInitialisation, bind_of_ok thread_run, bind_of_ok (initState_run _)]
    rcases usable with done | mine
    · rw [done]
      rfl
    · rw [mine]
      dsimp only
      rw [if_pos rfl]
      rfl
  rw [ensureInitialisedWithin, bind_of_ok ready]
  rfl

theorem ensureInitialisedWithin_ready (usable : m.Usable cls.id) :
    Readied cls (ensureInitialisedWithin host (n + 1) cls) s m :=
  .of_ok (ensureInitialisedWithin_usable n usable) (Std.Refl.refl m) fun _ => usable

/-- For a class that another thread initialises the thread has to wait. -/
theorem ensureInitialisedWithin_blocked {owner : ThreadId} (other : owner ≠ m.thread.id)
    (state : m.world.initState cls.id = .initialising owner) :
    Readied cls (ensureInitialisedWithin host (n + 1) cls) s m := by
  have blocked : beginInitialisation cls.id s m = .error .blocked m := by
    rw [beginInitialisation, bind_of_ok thread_run, bind_of_ok (initState_run _), state]
    dsimp only
    rw [if_neg other]
    rfl
  exact .of_error (bind_of_error blocked) (Std.Refl.refl m)

/-- A class whose initialisation failed cannot be used. -/
theorem ensureInitialisedWithin_failed (state : m.world.initState cls.id = .erroneous) :
    Readied cls (ensureInitialisedWithin host (n + 1) cls) s m := by
  have failed : beginInitialisation cls.id s m = .ok .failed m := by
    rw [beginInitialisation, bind_of_ok thread_run, bind_of_ok (initState_run _), state]
    rfl
  let message := some s!"Could not initialize class {cls.name}"
  have run : ensureInitialisedWithin host (n + 1) cls s m =
      (raise Throwable.noClassDefFoundError message >>= fun _ => pure false) s m := by
    rw [ensureInitialisedWithin, bind_of_ok failed]
  have raising : Keeps Machine.Lawful (raise Throwable.noClassDefFoundError message) :=
    raise_keeps _ _
  cases raised : raise Throwable.noClassDefFoundError message s m with
  | ok _ m' =>
      rw [bind_of_ok raised] at run
      exact .of_ok run (raising.of_ok raised) (by simp)
  | error stop m' =>
      rw [bind_of_error raised] at run
      exact .of_error run (raising.of_error raised)

/-- A class that nobody has claimed is claimed, and its initialisers are run. -/
theorem ensureInitialisedWithin_fresh (fresh : m.world.initState cls.id = .uninitialised) :
    ensureInitialisedWithin host (n + 1) cls s m =
      (attempt (initialisers host n cls) >>= finishing cls) s
        { m with world := m.world.moving cls.id (.initialising m.thread.id) } := by
  have claimed : beginInitialisation cls.id s m = .ok .run
      { m with world := m.world.moving cls.id (.initialising m.thread.id) } := by
    rw [beginInitialisation, bind_of_ok thread_run, bind_of_ok (initState_run _), fresh]
    rfl
  rw [ensureInitialisedWithin, bind_of_ok claimed]
  rfl

/-- A class that nobody has claimed becomes ready. -/
theorem ensureInitialisedWithin_claim (hr : host.toReentry.Goes (.keeping Machine.Lawful))
    (above : Readies (ensureInitialisedWithin host n)) (sane : m.world.Sane)
    (known : cls ∈ m.world.library.classes)
    (fresh : m.world.initState cls.id = .uninitialised) :
    Readied cls (ensureInitialisedWithin host (n + 1) cls) s m := by
  let mid : Machine := { m with world := m.world.moving cls.id (.initialising m.thread.id) }
  have run : ensureInitialisedWithin host (n + 1) cls s m =
      (attempt (initialisers host n cls) >>= finishing cls) s mid :=
    ensureInitialisedWithin_fresh n fresh
  have claims : m.Claims cls.id [.moved cls.id .uninitialised (.initialising m.thread.id)] mid := by
    refine ⟨rfl, World.initState_moving_self (sane.placed known) _, ?_⟩
    have unclaimed : World.Amid cls.id [] m.world m.world := .refl sane
    have amid := unclaimed.moving (.initialising m.thread.id)
    rwa [fresh] at amid
  obtain ⟨entries, course, claims⟩ := initialisers_claims (s := s) hr above claims known
  have placed {a : Machine} (claims : m.Claims cls.id entries a) :
      cls.id < a.world.classStates.size :=
    claims.amid.sane.placed (by rwa [claims.amid.library])
  have ended {a : Machine} (claims : m.Claims cls.id entries a) (succeeded : Bool)
      (events : Array Event) : m.Lawful
        { a with world := { (a.world.moving cls.id (.outcome succeeded)) with events } } := by
    have finished := claims.ended fresh (placed claims) course succeeded
    exact IsTrans.trans _ _ _ finished (AllowsCore.sameClasses rfl
      ⟨rfl, rfl, fun _ => rfl, fun _ _ => .inl, rfl⟩ id (.beside rfl rfl rfl rfl rfl rfl rfl))
  cases ran : initialisers host n cls s mid with
  | ok ready a =>
      rw [after_of_ok ran] at claims
      obtain ⟨events, finished⟩ := finishing_run (s := s) (m := a) cls (.ok ready)
      rw [bind_of_ok (attempt_of_ok ran), finished] at run
      refine .of_ok run (ended claims ready events) fun succeeded => .inl ?_
      subst succeeded
      exact World.initState_moving_self (placed claims) .initialised
  | error stop a =>
      rw [after_of_error ran] at claims
      cases stop with
      | fault e =>
          obtain ⟨events, finished⟩ := finishing_run (s := s) (m := a) cls (.error e)
          rw [bind_of_ok (attempt_of_fault ran), finished] at run
          exact .of_error run (ended claims false events)
      | blocked =>
          rw [bind_of_error (attempt_of_stop ran (by simp))] at run
          exact .of_error run (claims.unended fresh course)
      | exhausted =>
          rw [bind_of_error (attempt_of_stop ran (by simp))] at run
          exact .of_error run (claims.unended fresh course)

end Ensure

/-- Bringing a class into use is lawful, however it ends. -/
theorem ensureInitialisedWithin_readies (hr : host.toReentry.Goes (.keeping Machine.Lawful)) :
    ∀ n, Readies (ensureInitialisedWithin host n)
  | 0 => fun _ _ m _ _ => .of_error rfl (Std.Refl.refl m)
  | n + 1 => by
      intro cls s m sane known
      cases state : m.world.initState cls.id with
      | uninitialised =>
          exact ensureInitialisedWithin_claim n hr (ensureInitialisedWithin_readies hr n) sane known
            state
      | initialising owner =>
          by_cases mine : owner = m.thread.id
          · exact ensureInitialisedWithin_ready n (.inr (mine ▸ state))
          · exact ensureInitialisedWithin_blocked n mine state
      | initialised => exact ensureInitialisedWithin_ready n (.inl state)
      | erroneous => exact ensureInitialisedWithin_failed n state

theorem ensureInitialised_readies (hr : host.toReentry.Goes (.keeping Machine.Lawful)) :
    Readies (ensureInitialised host) := by
  intro cls s m sane known
  have within := ensureInitialisedWithin_readies hr (m.world.library.budget + 1) cls s m sane known
  exact ⟨within.lawful, within.usable⟩

/-! ## Using a class -/

/-- The world is sane, and the class is one of its classes. -/
def Knows (cls : LoadedClass) (m : Machine) : Prop :=
  m.world.Sane ∧ cls ∈ m.world.library.classes

/-- The world is sane, and the class can be used. -/
def MayUse (id : Nat) (m : Machine) : Prop := m.world.Sane ∧ m.Usable id

/-- The world is sane, and the field is one of the class that its name stands for. -/
def Owned (f : FieldRef) (m : Machine) : Prop :=
  m.world.Sane ∧ ∃ c, m.world.library.find? f.decl.className = some c ∧ c.id = f.owner.id

/-- A computation beside the core of a machine is a lawful step. -/
theorem Along.beside {x : Exec α} {P : Machine → Prop} {Q : α → Machine → Prop}
    (hx : Keeps Machine.Core x)
    (hQ : ∀ s m a m', P m → x s m = .ok a m' → m.Core m' → Q a m') :
    Along (.keeping Machine.Lawful) P x Q :=
  .of_keeps hx (fun _ _ _ core => lawful_lax.step ⟨core.id, core.world⟩)
    (fun _ _ _ _ core => lawful_lax.stop ⟨core.id, core.world⟩)
    fun s m a m' hm run => hQ s m a m' hm run (hx.of_ok run)

/-- Nothing is said of a world that is not sane. -/
theorem Along.of_sane {x : Exec α}
    (hx : Along (.keeping Machine.Lawful) (·.world.Sane) x fun _ _ => True) :
    Goes (.keeping Machine.Lawful) x := by
  intro s m _
  by_cases sane : m.world.Sane
  · exact hx s m sane
  · have vacuous (m' : Machine) : m.Lawful m' := fun h => absurd h sane
    exact ⟨fun _ m' _ => ⟨.single (vacuous m'), trivial⟩, fun _ m' _ => ⟨m, .refl, vacuous m'⟩⟩

/-- It leaves a world sane. -/
theorem Along.sound {x : Exec α} (hx : Keeps Machine.Core x) :
    Along (.keeping Machine.Lawful) (·.world.Sane) x fun _ m' => m'.world.Sane :=
  .beside hx fun _ _ _ _ sane _ core => sane.of_sameClasses core.world

/-- It leaves a class that may be used. -/
theorem Along.mayUse {x : Exec α} (hx : Keeps Machine.Core x) (id : Nat) :
    Along (.keeping Machine.Lawful) (MayUse id) x fun _ => MayUse id :=
  .beside hx fun _ _ _ _ may _ core => ⟨may.1.of_sameClasses core.world, core.usable may.2⟩

theorem ensureInitialised_lawful (hr : host.toReentry.Goes (.keeping Machine.Lawful))
    (cls : LoadedClass) :
    Along (.keeping Machine.Lawful) (Knows cls) (ensureInitialised host cls) fun usable m' =>
      usable = true → MayUse cls.id m' := by
  rintro s m ⟨sane, known⟩
  have readied := ensureInitialised_readies hr cls s m sane known
  constructor
  · intro usable m' h
    have lawful := readied.lawful
    rw [after_of_ok h] at lawful
    refine ⟨.single lawful, ?_⟩
    rintro rfl
    exact ⟨(lawful sane).2.sane, readied.usable m' h⟩
  · intro stop m' h
    have lawful := readied.lawful
    rw [after_of_error h] at lawful
    exact ⟨m, .refl, lawful⟩

theorem useClass_lawful (id : Nat) :
    Along (.keeping Machine.Lawful) (MayUse id) (useClass id) fun _ _ => True := by
  rintro s m ⟨sane, usable⟩
  have run : useClass id s m = .ok ()
      { m with world := m.world.noting (.used id m.thread.id (m.world.initState id)) } := rfl
  refine ⟨fun a m' h => ⟨.single fun _ => ?_, trivial⟩, fun stop m' h => ?_⟩
  · rw [run] at h
    cases h
    exact ⟨rfl, .noting sane usable fun _ => rfl⟩
  · rw [run] at h
    cases h

theorem declaringClass_lawful (decl : MethodDecl) :
    Along (.keeping Machine.Lawful) (·.world.Sane) (declaringClass decl) Knows := by
  refine .beside (declaringClass_keeps decl) fun s m cls m' sane run core => ?_
  obtain ⟨rfl, found⟩ := findClass_ok run
  exact ⟨sane, Library.mem_of_find? found⟩

theorem resolveClass_lawful (name : String) :
    Along (.keeping Machine.Lawful) (·.world.Sane) (resolveClass name) fun cls m' =>
      m'.world.Sane ∧ ∀ c, cls = some c → c ∈ m'.world.library.classes := by
  refine .beside (resolveClass_keeps name) fun s m cls m' sane run core => ?_
  refine ⟨sane.of_sameClasses core.world, ?_⟩
  rintro c rfl
  obtain ⟨rfl, found⟩ := resolveClass_some run
  exact Library.mem_of_find? found

/-- The field that a reference means belongs to the class that it names. -/
theorem resolveFieldRef_lawful (ref : MemberRef) :
    Along (.keeping Machine.Lawful) (·.world.Sane) (resolveFieldRef ref) fun f m' =>
      ∀ g, f = some g → Owned g m' := by
  refine .beside (resolveFieldRef_keeps ref) ?_
  rintro s m f m' sane run core g rfl
  have sane : m'.world.Sane := sane.of_sameClasses core.world
  refine ⟨sane, ?_⟩
  unfold resolveFieldRef at run
  obtain ⟨cls, mid, -, run⟩ := bind_eq_ok run
  cases cls with
  | none => cases run
  | some cls =>
      obtain ⟨found, last, resolved, run⟩ := bind_eq_ok run
      cases found with
      | none =>
          obtain ⟨_, _, -, run⟩ := bind_eq_ok run
          cases run
      | some f =>
          cases run
          exact sane.memo _ _ (resolveField_ok resolved)

theorem readField_lawful (static : Bool) :
    Along (.keeping Machine.Lawful) (·.world.Sane) (readField static) fun f m' =>
      ∀ g, f = some g → Owned g m' := by
  unfold readField
  refine (Along.sound readFieldRef_keeps).bind fun ref => ?_
  refine (resolveFieldRef_lawful ref).bind fun f => ?_
  cases f with
  | none => exact .pure _ fun _ _ _ h => nomatch h
  | some f =>
      dsimp only
      split
      · exact .pure _ fun _ owned => owned
      · refine Along.bind (Q := fun _ _ => True) (.beside (raise_keeps _ _) fun _ _ _ _ _ _ _ => ?_)
          fun _ => .pure _ fun _ _ _ h => nomatch h
        trivial

section Uses

variable (hr : host.toReentry.Goes (.keeping Machine.Lawful))

include hr

/-- A static field may be accessed when its class can be used. -/
theorem readStaticField_lawful :
    Along (.keeping Machine.Lawful) (·.world.Sane) (readStaticField host) fun f m' =>
      ∀ g, f = some g → MayUse g.owner.id m' := by
  unfold readStaticField
  refine (readField_lawful true).bind fun f => ?_
  cases f with
  | none => exact .pure _ fun _ _ _ h => nomatch h
  | some f =>
      have owner : Along (.keeping Machine.Lawful) (fun m => ∀ g, some f = some g → Owned g m)
          (findClass f.decl.className) fun cls m' => Knows cls m' ∧ cls.id = f.owner.id := by
        refine .beside (findClass_keeps _) fun s m cls m' owned run core => ?_
        obtain ⟨sane, c, known, same⟩ := owned f rfl
        obtain ⟨rfl, found⟩ := findClass_ok run
        rw [known] at found
        cases found
        exact ⟨⟨sane, Library.mem_of_find? known⟩, same⟩
      refine owner.bind fun cls s m => ?_
      rintro ⟨knows, same⟩
      refine ((ensureInitialised_lawful hr cls).bind fun usable => ?_) s m knows
      cases usable with
      | false => exact .pure _ fun _ _ _ h => nomatch h
      | true =>
          refine .pure _ ?_
          rintro m may g ⟨⟩
          exact same ▸ may rfl

theorem getStaticField_lawful :
    Along (.keeping Machine.Lawful) (·.world.Sane) (getStaticField host) fun _ _ => True := by
  unfold getStaticField
  refine (readStaticField_lawful hr).bind fun f => ?_
  cases f with
  | none => exact .pure _ fun _ _ => trivial
  | some f =>
      refine ((useClass_lawful f.owner.id).weaken (fun _ may => may f rfl) fun _ _ h => h).bind
        fun _ => ?_
      exact Goes.own lawful_lax (getStatic_push f)

theorem putStaticField_lawful :
    Along (.keeping Machine.Lawful) (·.world.Sane) (putStaticField host) fun _ _ => True := by
  unfold putStaticField
  refine (readStaticField_lawful hr).bind fun f => ?_
  cases f with
  | none => exact .pure _ fun _ _ => trivial
  | some f =>
      refine ((Along.mayUse pop_keeps f.owner.id).weaken (fun _ may => may f rfl)
        fun _ _ h => h).bind fun v => (Along.mayUse (.ofExcept _) f.owner.id).bind fun v => ?_
      refine (useClass_lawful f.owner.id).bind fun _ => ?_
      exact Goes.own lawful_lax (setStatic_keeps f v)

theorem newObject_lawful :
    Along (.keeping Machine.Lawful) (·.world.Sane) (newObject host) fun _ _ => True := by
  unfold newObject
  refine (Along.sound readClassName_keeps).bind fun name => (resolveClass_lawful name).bind
    fun cls => ?_
  cases cls with
  | none => exact .pure _ fun _ _ => trivial
  | some cls =>
      dsimp only
      split
      · exact .beside (raise_keeps _ _) fun _ _ _ _ _ _ _ => trivial
      · refine ((ensureInitialised_lawful hr cls).weaken (fun _ h => ⟨h.1, h.2 cls rfl⟩)
          fun _ _ h => h).bind fun usable => ?_
        cases usable with
        | false => exact .pure _ fun _ _ => trivial
        | true =>
            refine ((useClass_lawful cls.id).weaken (fun _ may => may rfl) fun _ _ h => h).bind
              fun _ => Goes.own lawful_lax ?_
            refine (orOutOfMemory_keeps (newInstance_freely cls false)).bind fun object => ?_
            split
            · exact push_keeps rfl
            · exact .pure _

theorem invokeStatic_lawful
    (hi : ∀ cls decl, Goes (.keeping Machine.Lawful) (invoke host cls decl)) :
    Along (.keeping Machine.Lawful) (·.world.Sane) (invokeStatic host) fun _ _ => True := by
  unfold invokeStatic
  refine (Along.sound readMethodRef_keeps).bind fun ref => ?_
  refine (Along.sound (resolveClass_keeps _)).bind fun cls => ?_
  cases cls with
  | none => exact .pure _ fun _ _ => trivial
  | some cls =>
      refine (Along.sound (resolveMethod_keeps ref)).bind fun resolved => ?_
      cases resolved with
      | none => exact .pure _ fun _ _ => trivial
      | some decl =>
          dsimp only
          split
          · exact .beside (raise_keeps _ _) fun _ _ _ _ _ _ _ => trivial
          · refine (declaringClass_lawful decl).bind fun owner => ?_
            refine (ensureInitialised_lawful hr owner).bind fun usable => ?_
            cases usable with
            | false => exact .pure _ fun _ _ => trivial
            | true =>
                refine ((useClass_lawful owner.id).weaken (fun _ may => may rfl)
                  fun _ _ h => h).bind fun _ => ?_
                exact (hi owner decl).discard

/-- The instructions that use a class are lawful. -/
theorem uses_lawful (hi : ∀ cls decl, Goes (.keeping Machine.Lawful) (invoke host cls decl)) :
    UsesGo (.keeping Machine.Lawful) host where
  getStatic := .of_sane (getStaticField_lawful hr)
  putStatic := .of_sane (putStaticField_lawful hr)
  invokeStatic := .of_sane (invokeStatic_lawful hr hi)
  newObject := .of_sane (newObject_lawful hr)

end Uses

/-- A run is lawful when its loop is, because the level of the thread is not looked at. -/
theorem runLoop_lawful (n : Nat)
    (turning : ∀ level, Goes (.keeping Machine.Lawful) (loop host level n)) :
    Goes (.keeping Machine.Lawful) (runLoop host n) :=
  runLoop_goes lawful_lax (fun _ => Keeps.goes fun _ _ sane => ⟨rfl, .refl sane⟩) turning

theorem record_delivered_lawful (e : Handle) : Keeps Machine.Lawful (record (.delivered e)) :=
  fun _ _ sane => ⟨rfl, .noting sane trivial fun _ => rfl⟩

end Exec

/-! ## The engine -/

namespace Engine

open Exec

variable {natives : Natives}

/-- Every class has a course, however deep the engine is re-entered. -/
theorem lawful (hn : ∀ n, natives.Abide Machine.SameIdClasses (reentry natives n)) :
    ∀ n, (reentry natives n).Goes (.keeping Machine.Lawful) :=
  goes lawful_lax hn (fun n hr => uses_lawful hr (invoke_goes lawful_lax (hn n) hr))
    (fun e => (record_delivered_lawful e).goes) fun _ n turning => runLoop_lawful n turning

end Engine

/-- What becomes of a world whose library is fixed: threads call methods and go on with their
frames, one after the other, and in between the host changes what it likes beside the classes. -/
inductive World.Leads (natives : Natives) (w : World) : World → Prop
  | refl : Leads natives w w
  | call {mid : World} (t : Thread) (s : Settings) (budget : Nat) (cls : LoadedClass)
      (decl : MethodDecl) (args : List Value) : Leads natives w mid →
      Leads natives w ((Engine.call natives budget cls decl args).after s ⟨mid, t⟩).world
  | run {mid : World} (t : Thread) (s : Settings) (budget : Nat) : Leads natives w mid →
      Leads natives w ((Engine.run natives budget).after s ⟨mid, t⟩).world
  | beside {mid w' : World} : Leads natives w mid → mid.SameClasses w' → Leads natives w w'

namespace Sample

/-- An initialiser that only returns. -/
def clinit (className : String) : MethodDecl :=
  { method [0xb1] [] with name := "<clinit>", className }

/-- A method that reads a static field of its class. -/
def reading : MethodDecl := { method [0xb2, 0x00, 0x01, 0x57, 0xb1] [] with className := "B" }

/-- A class with an initialiser. -/
def base : LoadedClass := { cls with methods := [clinit "A"] }

/-- A subclass with an initialiser and a static field. -/
def derived : LoadedClass :=
  { cls with
    name := "B"
    superName := some "A"
    pool := #[.empty, .field ⟨"B", "x", "I"⟩]
    methods := [clinit "B", reading]
    fields := [⟨"x", "I", ⟨0x0008⟩, "B", .int⟩]
    id := 1 }

/-- Both classes are declared, and neither is initialised. -/
def declared : World where
  library := ⟨[derived, base]⟩
  classStates := #[base.freshState, derived.freshState]

theorem declared_sane : declared.Sane where
  states := rfl
  places := by simp [declared, base, derived, cls]
  fields := by simp [declared, base, derived, cls]
  memo key f h := nomatch h

end Sample

namespace World.Leads

open Engine Exec

variable {natives : Natives} {w w' : World}

theorem lawful (hn : ∀ n, natives.Abide Machine.SameIdClasses (reentry natives n)) (sane : w.Sane)
    (h : w.Leads natives w') : w.Lawful w' := by
  induction h with
  | refl => exact .refl sane
  | call t s budget cls decl args _ ih =>
      have keeps := ((Engine.lawful hn budget).call cls decl args).keeps
      exact ih.trans (keeps s ⟨_, t⟩ ih.sane).2
  | run t s budget _ ih =>
      have keeps := (Engine.lawful hn budget).run.keeps
      exact ih.trans (keeps s ⟨_, t⟩ ih.sane).2
  | beside _ sameClasses ih => exact ih.trans (.of_sameClasses ih.sane sameClasses)

/-- Whatever runs on a fixed library, the initialisation of a class is claimed, then ended, and
stays as it is; its initialiser is called at most once; it is called after the superclass, if the
library has it, was claimed; and a class is used only when it is initialised or when its user is
initialising it. -/
theorem initialises_once (hn : ∀ n, natives.Abide Machine.SameIdClasses (reentry natives n))
    (sane : w.Sane) (h : w.Leads natives w') :
    ∃ added, w'.history = added ++ w.history ∧
      (∀ id, Course id (w.initState id) (added.filter (·.concerns id)) (w'.initState id)) ∧
      (∀ id, added.countP (·.starts id) ≤ 1) ∧
      (∀ id superclass, .started id superclass ∈ added → superclass ≠ some .uninitialised ∧
        ∃ c ∈ w.library.classes, c.id = id ∧
          superclass.isSome = (c.superName.bind w.library.find?).isSome) ∧
      ∀ id t state, .used id t state ∈ added →
        state = .initialised ∨ state = .initialising t := by
  obtain ⟨added, grows, courses⟩ := h.lawful hn sane
  refine ⟨added, grows.history, courses, fun id => ?_, fun id superclass => grows.proper _,
    fun id t state => grows.proper _⟩
  have once := (courses id).starts_le_one
  rw [List.countP_filter] at once
  refine le_trans (le_of_eq (List.countP_congr fun o _ => ?_)) once
  simp only [Bool.and_eq_true, iff_self_and]
  exact Occurrence.concerns_of_starts

/-- Reading a static field initialises the class once, behind its superclass. -/
theorem initialises_once_derived :
    ((Engine.call coreNatives 5 Sample.derived Sample.reading []).after {}
        ⟨Sample.declared, { id := 0 }⟩).world.history =
      [.used 1 0 .initialised,
        .moved 1 (.initialising 0) .initialised, .started 1 (some .initialised),
        .moved 0 (.initialising 0) .initialised, .started 0 none,
        .moved 0 .uninitialised (.initialising 0), .moved 1 .uninitialised (.initialising 0)] ∧
    ∀ id, ((Engine.call coreNatives 5 Sample.derived Sample.reading []).after {}
      ⟨Sample.declared, { id := 0 }⟩).world.history.countP (·.starts id) ≤ 1 := by
  refine ⟨by decide +kernel, fun id => ?_⟩
  obtain ⟨added, history, -, once, -⟩ := initialises_once (fun _ => coreNatives_abide _)
    Sample.declared_sane (.call { id := 0 } {} 5 Sample.derived Sample.reading [] .refl)
  have all : added ++ Sample.declared.history = added := List.append_nil added
  rw [history, all]
  exact once id

end World.Leads

end JavaMachine
