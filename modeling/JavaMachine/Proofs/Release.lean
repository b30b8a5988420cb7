import JavaMachine.Proofs.Balance
import JavaMachine.Proofs.Ledger
import JavaMachine.Proofs.Outcomes

/-!
# The release of monitors

A call gives back every monitor that it has entered, in whatever way its frames are left.  The
frames of a run account for their monitors turn by turn (`turn_ledger`), those of the caller are not
touched, and in the end no frame of the run is left; so the thread has no more entries than before
the call.  Natives are expected to keep away from the monitors themselves.  They may call methods,
and by the induction on the budget of the engine these calls give back what they enter.

A machine that is halted leaves frames where they are, with what they hold.  So nothing is said of
a computation after which the machine is halted.
-/

namespace JavaMachine

open Relation (ReflTransGen)

/-! ## Unless the machine is halted -/

namespace Machine

/-- From a well-formed thread a relation holds, unless the machine is halted then. -/
structure Unless (R : Machine → Machine → Prop) (m m' : Machine) : Prop where
  /-- The thread has stayed well-formed. -/
  wellFormed : m.thread.WellFormed → m'.thread.WellFormed
  /-- A halted machine stays halted. -/
  halted : m.world.halted = true → m'.world.halted = true
  /-- The relation holds. -/
  holds : m.thread.WellFormed → m'.world.halted = false → R m m'

variable {R R' : Machine → Machine → Prop} {m m' : Machine}

instance [IsPreorder Machine R] : IsPreorder Machine (Unless R) where
  refl m := ⟨id, id, fun _ _ => Std.Refl.refl m⟩
  trans _ _ _ first second :=
    { wellFormed := second.wellFormed ∘ first.wellFormed
      halted := second.halted ∘ first.halted
      holds := fun wf unhalted => IsTrans.trans _ _ _
        (first.holds wf (running_before second.halted unhalted))
        (second.holds (first.wellFormed wf) unhalted) }

theorem Unless.mono (h : m.Unless R m') (sub : R m m' → R' m m') : m.Unless R' m' :=
  ⟨h.wellFormed, h.halted, fun wf unhalted => sub (h.holds wf unhalted)⟩

theorem Unless.of_within (within : m.Within m') (h : R m m') : m.Unless R m' :=
  ⟨within.wellFormed, within.halted, fun _ _ => h⟩

/-! ## What calls and instructions do to the account -/

/-- Between two machines the thread has given back what it has entered, and its frames hold what
they held. -/
structure Frees (m m' : Machine) : Prop where
  /-- The frames hold the same monitors. -/
  held : m'.held = m.held
  /-- The thread has no more entries than before. -/
  accounts : m.Accounts [] [] m'

instance : IsPreorder Machine Frees where
  refl _ := ⟨rfl, .of_same rfl rfl rfl⟩
  trans _ _ _ first second :=
    ⟨second.held.trans first.held, first.accounts.trans second.accounts⟩

theorem SameHeldMonitors.frees (h : m.SameHeldMonitors m') : m.Frees m' :=
  ⟨h.held, .of_same h.id h.strays h.monitors⟩

theorem SameFramesMonitors.frees (h : m.SameFramesMonitors m') : m.Frees m' :=
  h.sameHeldMonitors.frees

theorem Frees.ledger (h : m.Frees m') (height : Nat) : m.Ledger height m' := by
  have same : m'.owed height = m.owed height := by rw [owed, owed, h.held]
  rw [Ledger, same]
  simpa using h.accounts.more (m.owed height)

theorem Frees.length_eq (h : m.Frees m') : m'.frames.length = m.frames.length := by
  have same := congrArg List.length h.held
  rwa [List.length_map, List.length_map] at same

/-- Between two machines no frame is left, and the frames account for the monitors, so many of the
topmost ones in any case. -/
structure Pays (top : Nat) (m m' : Machine) : Prop where
  /-- There are as many frames as before, at least. -/
  length : m.frames.length ≤ m'.frames.length
  /-- The frames account for the monitors. -/
  ledger : ∀ {height}, height + top ≤ m.frames.length → m.Ledger height m'

instance {top : Nat} : IsPreorder Machine (Pays top) where
  refl m := ⟨Nat.le_refl _, fun _ => (Std.Refl.refl m : m.SameHeldMonitors m).ledger _⟩
  trans _ _ _ first second :=
    { length := Nat.le_trans first.length second.length
      ledger := fun le => (first.ledger le).trans (second.ledger (Nat.le_trans le first.length)) }

theorem Frees.pays {top : Nat} (h : m.Frees m') : m.Pays top m' :=
  ⟨Nat.le_of_eq h.length_eq.symm, fun _ => h.ledger _⟩

theorem Pays.mono {top top' : Nat} (h : m.Pays top m') (le : top ≤ top') : m.Pays top' m' :=
  ⟨h.length, fun le' => h.ledger (Nat.le_trans (Nat.add_le_add_left le _) le')⟩

end Machine

/-- The ways of a computation whose result is related to the machine that it begins with. -/
def Ways.results (R : Machine → Machine → Prop) : Ways := ⟨fun _ => R, fun _ _ _ _ => True⟩

namespace Exec

variable {α : Type} {x : Exec α} {P : Machine → Prop} {Q : α → Machine → Prop}
  {R R' : Machine → Machine → Prop} {s : Settings} {m m' : Machine}

theorem Along.of_results (h : ∀ s m a m', P m → x s m = .ok a m' → R m m') :
    Along (.results R) P x fun _ _ => True :=
  fun s m hm => ⟨fun a m' run => ⟨.single (h s m a m' hm run), trivial⟩,
    fun _ _ _ => ⟨m, .refl, trivial⟩⟩

theorem Along.result [IsPreorder Machine R] (hx : Along (.results R) P x Q) (hm : P m) {a : α}
    (h : x s m = .ok a m') : R m m' := by
  obtain ⟨steps, -⟩ := hx.of_ok hm h
  exact closed_steps steps

theorem Along.results_mono (hx : Along (.results R) P x Q) (sub : ∀ m m', R m m' → R' m m') :
    Along (.results R') P x Q := hx.mono (fun _ => sub) fun _ _ _ _ h => h

end Exec

/-! ## Natives that keep away from the monitors -/

/-- What such a native does to a machine: it works on the operands, or it calls a method while no
exception is pending. -/
inductive Chore (r : Reentry) (s : Settings) : Machine → Machine → Prop
  | work {m m' : Machine} : m.SameFramesMonitors m' → Chore r s m m'
  | call {m m' : Machine} {cls : LoadedClass} {decl : MethodDecl} {args : List Value}
      {i : Invocation} : m.thread.pending = none → r.call cls decl args s m = .ok i m' →
      Chore r s m m'

/-- The ways of such a native. -/
def chores (r : Reentry) : Ways := ⟨Chore r, ActStop .strict r⟩

/-- The natives of a machine keep away from the monitors.  They pass on the faults of their calls,
and they call methods only while no exception is pending. -/
def Natives.Tidy (ns : Natives) (r : Reentry) : Prop :=
  ∀ signature native, ns.find? signature = some native →
    Exec.Along (chores r) Discipline.strict.Ready (native r) fun _ _ => True

theorem Natives.Tidy.keep {ns : Natives} {r : Reentry} (h : ns.Tidy r) : ns.Keep .strict r := by
  intro signature native found
  refine (h signature native found).mono (fun s m m' chore => ?_) fun _ _ _ _ stops => stops
  cases chore with
  | work same => exact .work same.toSameFrames
  | call clear called => exact .call (fun _ => clear) called

/-- Every call that is made while no exception is pending gives back what it enters. -/
def Reentry.Frees (r : Reentry) : Prop :=
  ∀ {cls : LoadedClass} {decl : MethodDecl} {args : List Value} {s : Settings} {m m' : Machine}
    {i : Invocation}, m.thread.pending = none → r.call cls decl args s m = .ok i m' →
    m.Unless Machine.Frees m'

theorem frees_calls {host : Host} (hf : host.Frees) :
    (Ways.results (Machine.Unless Machine.Frees)).Calls .strict host where
  step same := .of_within same.toWithin same.frees
  stop _ := trivial
  tidied _ _ := trivial
  call _ _ _ := .of_results fun _ _ _ _ ready called => hf (ready rfl) called

namespace Exec

variable {host : Host} {level : Nat} {s : Settings} {m m' : Machine} {height : Nat}

section Hosts

variable (hf : host.Frees)

include hf

theorem deliverUncaught_frees {exception : Handle} {o : RunOutcome}
    (h : deliverUncaught host exception s m = .ok o m') : m.Unless Machine.Frees m' :=
  (deliverUncaught_along (frees_calls hf) exception).result trivial h

variable (hn : host.natives.Tidy host.toReentry)

include hn

theorem native_frees {signature : String} {native : NativeFn}
    (found : host.natives.find? signature = some native) (clear : m.thread.pending = none)
    (h : native host.toReentry s m = .ok () m') : m.Unless Machine.Frees m' := by
  have along : Along (.results (Machine.Unless Machine.Frees)) Discipline.strict.Ready
      (native host.toReentry) fun _ _ => True := by
    refine (hn signature native found).mono (fun s m m' chore => ?_) fun _ _ _ _ _ => trivial
    cases chore with
    | work same => exact (frees_calls hf).step (s := s) same
    | call clear called => exact hf clear called
  exact along.result (fun _ => clear) h

/-! ## Calling a method -/

omit hf hn in
theorem lock_accounts {monitor : Option MonitorKey}
    (h : (monitor.forM enterMonitor : Exec PUnit) s m = .ok () m') :
    m.SameThread m' ∧ m.Accounts [] monitor.toList m' := by
  refine ⟨lock_sameThread h, ?_⟩
  cases monitor with
  | none =>
      cases h
      exact .of_same rfl rfl rfl
  | some k =>
      obtain ⟨mon, entered, rfl⟩ := enterMonitor_ok h
      exact .enter entered rfl rfl rfl

omit hf hn in
theorem unlock_accounts {monitor : Option MonitorKey}
    (h : (monitor.forM fun k => discard (exitMonitor k) : Exec PUnit) s m = .ok () m') :
    m.SameThread m' ∧ m.Accounts monitor.toList [] m' := by
  refine ⟨unlock_sameThread h, ?_⟩
  cases monitor with
  | none =>
      cases h
      exact .of_same rfl rfl rfl
  | some k =>
      have run : (discard (exitMonitor k) : Exec PUnit) s m = .ok () m' := h
      rw [discard_of_ok (exitMonitor_run k)] at run
      cases run
      exact .exits [k] rfl rfl rfl fun _ => rfl

/-- A native holds the monitor of its method while it runs, and gives it back. -/
theorem invokeNative_frees {decl : MethodDecl} {monitor : Option MonitorKey}
    (clear : m.thread.pending = none) (wf : m.thread.WellFormed)
    (h : invokeNative host decl monitor s m = .ok () m') (unhalted : m'.world.halted = false) :
    m.Frees m' := by
  -- what runs between the two frees what it enters, so the whole does
  have inside {told locked b last : Machine}
      (reported : report (.invokeNative decl.signature) s m = .ok () told)
      (entered : (monitor.forM enterMonitor : Exec PUnit) s told = .ok () locked)
      (frees : locked.thread = m.thread → locked.Frees b)
      (exited : (monitor.forM fun k => discard (exitMonitor k) : Exec PUnit) s b = .ok () last) :
      m.Frees last := by
    obtain ⟨sameThread, entering⟩ := lock_accounts entered
    obtain ⟨sameThread', exiting⟩ := unlock_accounts exited
    have sameMonitors : m.SameThreadMonitors told := (report_keeps _).of_ok reported
    have thread : locked.thread = m.thread := sameThread.thread.trans sameMonitors.thread
    have before : m.Accounts [] monitor.toList locked :=
      sameMonitors.sameFramesMonitors.frees.accounts.trans entering
    have between := (frees thread).accounts.more monitor.toList
    rw [List.append_nil] at between
    refine ⟨?_, (before.trans between).trans exiting⟩
    have same : last.held = b.held := by rw [Machine.held, Machine.frames, sameThread'.thread]
    have same' : locked.held = m.held := by rw [Machine.held, Machine.frames, thread]
    exact same.trans ((frees thread).held.trans same')
  cases invokeNative_cases h with
  | @missing told locked freed reported entered exited raised =>
      have raising : Keeps Machine.SameFramesMonitors (do
          report (.noNative decl.signature)
          raise Throwable.unsatisfiedLinkError (some decl.signature)) :=
        (report_keeps _).bind fun _ => raise_keeps _ _
      have first : m.Frees freed :=
        inside reported entered (fun _ => Std.Refl.refl locked) exited
      exact IsTrans.trans _ _ _ first (raising.of_ok raised).frees
  | @ran native told locked left reported entered found run exited =>
      refine inside reported entered (fun thread => ?_) exited
      have frees := native_frees hf hn found (by rw [thread]; exact clear) run
      exact frees.holds (by rw [thread]; exact wf)
        (Machine.running_before (unlock_sameThread exited).halted unhalted)

/-- Invoking a method gives back what it enters, or leaves it to the new frame. -/
theorem invoke_pays {cls : LoadedClass} {decl : MethodDecl} {entered : Bool}
    (clear : m.thread.pending = none) (wf : m.thread.WellFormed)
    (h : invoke host cls decl s m = .ok entered m') (unhalted : m'.world.halted = false) :
    m.Pays 0 m' := by
  cases invoke_cases h with
  | abstract raised =>
      have sameMonitors : m.SameFramesMonitors m' := (raise_keeps _ _).of_ok raised
      exact sameMonitors.frees.pays
  | @native mid _ _ _ locked ran =>
      have sameMonitors : m.SameThreadMonitors mid := (callMonitor_keeps cls decl).of_ok locked
      have frees : mid.Frees m' := invokeNative_frees hf hn
        (by rw [sameMonitors.thread]; exact clear) (by rw [sameMonitors.thread]; exact wf) ran
        unhalted
      exact IsTrans.trans m mid m' sameMonitors.sameFramesMonitors.frees.pays frees.pays
  | @overflow mid told _ _ locked _ reported raised =>
      have before : m.SameFramesMonitors told := IsTrans.trans _ mid _
        ((callMonitor_keeps cls decl).of_ok locked) ((report_keeps _).of_ok reported)
      have sameMonitors : m.SameFramesMonitors m' :=
        IsTrans.trans _ _ _ before ((raise_keeps _ _).of_ok raised)
      exact sameMonitors.frees.pays
  | @entered mid _ _ locked _ framed =>
      have sameMonitors : m.SameThreadMonitors mid := (callMonitor_keeps cls decl).of_ok locked
      refine IsTrans.trans m mid m' sameMonitors.sameFramesMonitors.frees.pays ⟨?_, fun le =>
        (enterFrame_ledger framed le).1⟩
      have length := (enterFrame_ledger framed (Nat.zero_le _)).2
      omega

/-! ## Instructions -/

omit hf hn in
theorem monitorEnter_pays : Along (.results (Machine.Unless (Machine.Pays 1)))
    Discipline.strict.Ready monitorEnter fun _ _ => True := by
  refine .of_results fun s m _ m' _ h => .of_within (monitorEnter_within.of_ok h) ?_
  obtain ⟨v, mid, popped, h⟩ := bind_eq_ok h
  obtain ⟨key, mid', found, h⟩ := bind_eq_ok h
  have sameHeld : m.SameHeldMonitors mid' :=
    IsTrans.trans _ _ _ (pop_keeps.of_ok popped) ((monitorOf_keeps v).of_ok found)
  refine IsTrans.trans m mid' m' sameHeld.frees.pays ?_
  cases key with
  | none =>
      have sameMonitors : mid'.SameFramesMonitors m' := (raise_keeps _ _).of_ok h
      exact sameMonitors.frees.pays
  | some k =>
      constructor
      · by_cases some : 0 < mid'.frames.length
        · exact Nat.le_of_eq (pushMonitor_ledger h some).2.symm
        · omega
      · exact fun le => (pushMonitor_ledger h (Nat.lt_of_succ_le le)).1

omit hf hn in
theorem monitorExit_pays : Along (.results (Machine.Unless (Machine.Pays 1)))
    Discipline.strict.Ready monitorExit fun _ _ => True := by
  refine .of_results fun s m _ m' _ h => .of_within (monitorExit_within.of_ok h) ?_
  obtain ⟨v, mid, popped, h⟩ := bind_eq_ok h
  obtain ⟨key, mid', found, h⟩ := bind_eq_ok h
  have sameHeld : m.SameHeldMonitors mid' :=
    IsTrans.trans _ _ _ (pop_keeps.of_ok popped) ((monitorOf_keeps v).of_ok found)
  refine IsTrans.trans m mid' m' sameHeld.frees.pays ?_
  cases key with
  | none =>
      have sameMonitors : mid'.SameFramesMonitors m' := (raise_keeps _ _).of_ok h
      exact sameMonitors.frees.pays
  | some k =>
      obtain ⟨_, noted, counted, h⟩ := bind_eq_ok h
      obtain ⟨owned, last, exited, h⟩ := bind_eq_ok h
      have pays : mid'.Pays 1 last := by
        constructor
        · by_cases some : 0 < mid'.frames.length
          · exact Nat.le_of_eq (popMonitor_ledger counted exited some).2.symm
          · omega
        · exact fun le => (popMonitor_ledger counted exited (Nat.lt_of_succ_le le)).1
      have answer : Keeps Machine.SameFramesMonitors (if owned then pure () else
          raise Throwable.illegalMonitorStateException none) := by
        split
        · exact .pure _
        · exact raise_keeps _ _
      exact IsTrans.trans _ _ _ pays (answer.of_ok h).frees.pays

variable (hset : host.Settles) (hu : host.Upholds .strict)

include hset hu

theorem pays_admits :
    (Ways.results (Machine.Unless (Machine.Pays 1))).Admits .strict host := by
  have pays {α : Type} {x : Exec α} (hx : Keeps Machine.SameFramesMonitors x) {P : Machine → Prop} :
      Along (.results (Machine.Unless (Machine.Pays 1))) P x fun _ _ => True :=
    .of_results fun s m _ m' _ h => .of_within (hx.of_ok h).toWithin (hx.of_ok h).frees.pays
  refine .of_initialises ⟨fun within => ?_, fun _ => trivial⟩ (fun cls decl => ?_)
    ⟨fun cls => ?_, fun id => ?_⟩ (fun f v => pays (setStatic_keeps f v))
    (fun cls => pays (orOutOfMemory_keeps (newInstance_freely cls false)))
    monitorEnter_pays monitorExit_pays
  · exact .of_within within.toWithin within.sameHeldMonitors.frees.pays
  · refine .of_results fun s m entered m' ready h => ?_
    have upkeep : m.Upkeep s.config.maxFrames m' :=
      after_of_ok h ▸ invoke_upkeep hn.keep hu ready cls decl
    exact ⟨upkeep.wellFormed, upkeep.halted, fun wf unhalted =>
      (invoke_pays hf hn (ready rfl) wf h unhalted).mono (Nat.zero_le 1)⟩
  · exact (ensureInitialised_along (frees_calls hf) hset cls).results_mono fun _ _ h =>
      h.mono Machine.Frees.pays
  · exact (Along.sameThreadMonitors (frees_calls hf) (useClass_sameThreadMonitors id)).results_mono
      fun _ _ h => h.mono Machine.Frees.pays

/-- An instruction accounts for the monitors of all frames. -/
theorem step_ledger {flow : Flow} (clear : m.thread.pending = none) (wf : m.thread.WellFormed)
    (h : step host s m = .ok flow m') (unhalted : m'.world.halted = false)
    (lt : height < m.frames.length) : m.Ledger height m' := by
  obtain ⟨byte, a, fetched, h⟩ := bind_eq_ok h
  have sameHeld : m.SameHeldMonitors a := fetch_sameHeldMonitors.of_ok fetched
  obtain ⟨f, f', rest, fetches⟩ := fetch_ok fetched
  have upkeep : m.Upkeep 0 a := fetches_upkeep fetches
  have lt' : height < a.frames.length := by rwa [sameHeld.length_eq]
  refine (sameHeld.ledger height).trans ?_
  have plain := Opcode.namesAddress_ofByte byte
  generalize Opcode.ofByte byte = op at h plain
  by_cases value : op = .returnValue
  · subst value
    exact returnValue_ledger h lt'
  · by_cases void : op = .returnVoid
    · subst void
      exact returnVoid_ledger h lt'
    · rw [perform_plain value void] at h
      obtain ⟨_, b, performed, h⟩ := bind_eq_ok h
      cases h
      have ready : Discipline.strict.Ready a := fun _ => by rw [fetches.thread]; exact clear
      have pays := (performPlain_along (pays_admits hf hn hset hu) plain).result ready performed
      exact (pays.holds (upkeep.wellFormed wf) unhalted).ledger lt'

/-! ## Exceptions -/

omit hf hn hset hu in
theorem caught_sameHeldMonitors {f : Frame} {rest : List Frame} {row : Handler} {exception : Handle}
    (current : m.thread.frames = f :: rest) (events : Array Event) :
    m.SameHeldMonitors ((m.without [] m.thread.depths events).caught f rest row exception) := by
  rw [Machine.without_nil]
  refine ⟨⟨rfl, rfl, rfl⟩, ?_⟩
  simp only [Machine.held, Machine.frames, Machine.caught, current, List.map_cons]

variable {low own : List Frame} {kept : List Operand} {outer : List Nat} {n : Nat}

omit hf hn hset hu in
theorem running_height (running : m.Running .strict low kept outer own n) :
    low.length < m.frames.length := by
  have some := List.length_pos_iff.mpr running.ne_nil
  rw [running.frames, List.length_append]
  omega

omit hn hset hu in
/-- The frames that an exception leaves have exited their monitors. -/
theorem Unwound.ledger {exception : Handle} {cls : String} {o : Option RunOutcome}
    (h : Unwound host exception cls level s m o m') (wf : m.thread.WellFormed)
    (running : m.Running .strict low kept outer own n) (unhalted : m'.world.halted = false) :
    m.Ledger low.length m' := by
  induction h generalizing own n with
  | caught current _ => exact (caught_sameHeldMonitors current _).ledger _
  | ended current _ _ => exact Machine.without_ledger current (running_height running) _ _
  | @delivered m m' f rest outer' events o current _ _ delivered =>
      have upkeep : m.Upkeep 0 (m.without [f] (0 :: outer') events) :=
        Machine.upkeep_without current _ _
      have frees := deliverUncaught_frees hf delivered
      exact (Machine.without_ledger current (running_height running) _ _).trans
        ((frees.holds (upkeep.wellFormed wf) unhalted).ledger _)
  | @left m m' f rest k outer' events o current counter _ ih =>
      obtain ⟨upper, rfl, wf', less⟩ := left_running wf running current counter events
      exact (Machine.without_ledger current (running_height running) _ _).trans
        (ih wf' less unhalted)

/-! ## Turns and runs -/

variable (hs : host.Spares .strict)

include hs

/-- A turn of a run accounts for the monitors of its frames. -/
theorem turn_ledger {o : Option RunOutcome} (clear : m.thread.pending = none)
    (wf : m.thread.WellFormed) (running : m.Running .strict low kept outer own n)
    (h : turn host level s m = .ok o m') (unhalted : m'.world.halted = false) :
    m.Ledger low.length m' := by
  have ready : Discipline.strict.Ready m := fun _ => clear
  have height := running_height running
  cases turn_ok h with
  | halted _ halted =>
      rw [halted] at unhalted
      cases unhalted
  | settled begins stepped _ =>
      refine (begins.within.sameHeldMonitors.ledger _).trans ?_
      exact step_ledger hf hn hset hu (begins.samePending.trans clear)
        (begins.wellFormed wf) stepped unhalted
        (by rwa [begins.within.sameHeldMonitors.length_eq])
  | @handled b c _ flow e _ begins stepped pending handled =>
      have wf' := begins.wellFormed wf
      have upkeep : b.Upkeep s.config.maxFrames c :=
        after_of_ok stepped ▸ step_upkeep hn.keep hset hu (begins.ready ready)
      have upkeep' : c.Upkeep s.config.maxFrames m' :=
        after_of_ok handled ▸ handleException_upkeep hu e
      have first : b.Ledger low.length c :=
        step_ledger hf hn hset hu (begins.samePending.trans clear) wf'
        stepped (Machine.running_before upkeep'.halted unhalted)
        (by rwa [begins.within.sameHeldMonitors.length_eq])
      obtain ⟨own', n', running', -, -⟩ := step_handled (.inr rfl) hn.keep hset hs hu
        (begins.ready ready) wf' (running_sameStacks running begins.sameStacks) stepped pending
      obtain ⟨cls, unwound⟩ := handleException_ok handled
      exact (begins.within.sameHeldMonitors.ledger _).trans (first.trans
        (unwound.ledger hf (upkeep.wellFormed wf') running' unhalted))

theorem rounds_ledger (clear : m.thread.pending = none) (wf : m.thread.WellFormed)
    (running : m.Running .strict low kept outer own n)
    (h : ReflTransGen (Round host level s) m m') (unhalted : m'.world.halted = false) :
    m.Ledger low.length m' := by
  induction h with
  | refl => exact (Std.Refl.refl m : m.SameHeldMonitors m).ledger _
  | @tail mid last rounds round ih =>
      obtain ⟨wf', ready', own', n', running', -, -⟩ := rounds_running (.inr rfl) hn.keep hset hs hu
        (fun _ => clear) wf running rounds
      have upkeep : mid.Upkeep s.config.maxFrames last :=
        after_of_ok round ▸ turn_upkeep hn.keep hset hu ready'
      exact (ih (Machine.running_before upkeep.halted unhalted)).trans
        (turn_ledger hf hn hset hu hs (ready' rfl) wf' running' round unhalted)

/-- A run accounts for the monitors of its frames. -/
theorem runLoop_ledger {budget : Nat} {o : RunOutcome} (clear : m.thread.pending = none)
    (wf : m.thread.WellFormed) (running : m.Running .strict low kept outer own n)
    (h : runLoop host budget s m = .ok o m') (unhalted : m'.world.halted = false) :
    m.Ledger low.length m' := by
  obtain ⟨last, looped, rfl⟩ := runLoop_ok h
  obtain ⟨mid, rounds, final⟩ := loop_ok looped
  have level {m : Machine} (k : Nat) : m.Ledger low.length (m.atLevel k) := by
    have sameHeld : m.SameHeldMonitors (m.atLevel k) := ⟨⟨rfl, rfl, rfl⟩, rfl⟩
    exact sameHeld.ledger _
  let start := m.atLevel (m.thread.level + 1)
  have upkeep : m.Upkeep 0 start := Machine.upkeep_atLevel _
  have begun : start.Running .strict low kept outer own n := running_atLevel running _
  obtain ⟨wf', ready', own', n', running', -, -⟩ := rounds_running (.inr rfl) hn.keep hset hs hu
    (m := start) (fun _ => clear) (upkeep.wellFormed wf) begun rounds
  have unhalted' : last.world.halted = false := unhalted
  have ending : mid.Upkeep s.config.maxFrames last :=
    after_of_ok final ▸ turn_upkeep hn.keep hset hu ready'
  have first : start.Ledger low.length mid := rounds_ledger hf hn hset hu hs clear
    (upkeep.wellFormed wf) begun rounds (Machine.running_before ending.halted unhalted')
  have second : mid.Ledger low.length last :=
    turn_ledger hf hn hset hu hs (ready' rfl) wf' running' final unhalted'
  exact (level _).trans (first.trans (second.trans (level _)))

end Hosts

end Exec

/-- The natives that the machine brings along keep away from the monitors. -/
theorem coreNatives_tidy (r : Reentry) : coreNatives.Tidy r :=
  fun _ _ found => .of_keeps (coreNatives_keeps r found) (fun _ _ _ => .work)
    (fun _ _ _ _ same => .own same.toSameFrames) fun _ _ _ _ _ _ => trivial

namespace Sample

/-- A synchronized method that throws its last argument while it holds the monitor of that, too. -/
def holding : MethodDecl :=
  { rethrowing with flags := ⟨0x0021⟩, code := ⟨#[0x2c, 0xc2, 0x2c, 0xbf]⟩ }

/-- A class with a method that only returns. -/
def returning : LoadedClass :=
  { cls with
    pool := #[.empty, .method ⟨"A", "m", "()V"⟩]
    methods := [method [0xb1] []] }

/-- A frame that catches the pending exception, enters its monitor and then calls the method. -/
def locking : Machine :=
  let m := machine
    [{ frame [0x00, 0xb1, 0xc2, 0xb8, 0x00, 0x01, 0xb1] [row] 0 with cls := returning }] #[] [1]
  { world := { m.world with library := ⟨[returning]⟩, classStates := #[⟨.initialised, #[]⟩] }
    thread := { m.thread with level := 1 } }

/-- Whether the machine is halted after a call that returns nothing, and how often the thread has to
exit a monitor then. -/
def returned (x : Exec Invocation) (m : Machine) (k : MonitorKey) : Option (Bool × Nat) :=
  match x {} m with
  | .ok (.returned none) m' => some (m'.world.halted, (m'.world.monitors.get k).entries m.thread.id)
  | _ => none

theorem returned_eq_some {x : Exec Invocation} {m : Machine} {k : MonitorKey} {halted : Bool}
    {entries : Nat} (h : returned x m k = some (halted, entries)) :
    ∃ m', x {} m = .ok (.returned none) m' ∧ m'.world.halted = halted ∧
      (m'.world.monitors.get k).entries m.thread.id = entries := by
  unfold returned at h
  split at h
  next m' run =>
    cases h
    exact ⟨m', run, rfl, rfl⟩
  next => cases h

end Sample

/-! ## Calls -/

namespace Engine

open Exec

variable {natives : Natives}

section Tidy

variable (hn : ∀ n, natives.Tidy (reentry natives n))

include hn

/-- A call that is over has accounted for the monitors of all frames above those of its caller. -/
theorem ran_ledger {n : Nat} (frees : ∀ k ≤ n, (reentry natives k).Frees) {cls : LoadedClass}
    {decl : MethodDecl} {args : List Value} {events : Array Event} {s : Settings}
    {m ran : Machine} {o : RunOutcome} (wf : m.thread.WellFormed)
    (clear : m.thread.pending = none) (count : args.length = decl.argCount)
    (h : Ran (host natives n) cls decl s (m.prepared args events) o ran)
    (unhalted : ran.world.halted = false) : m.Ledger m.frames.length ran := by
  let prepared := m.prepared args events
  have keep (n : Nat) : natives.Keep .strict (reentry natives n) := (hn n).keep
  have wf' : prepared.thread.WellFormed := prepared_wellFormed wf
  have ready : Discipline.strict.Ready prepared := fun _ => clear
  have sameHeld : m.SameHeldMonitors prepared := ⟨⟨rfl, rfl, rfl⟩, rfl⟩
  have invoking {entered : Bool} {mid : Machine}
      (invoked : invoke (host natives n) cls decl s prepared = .ok entered mid)
      (unhalted : mid.world.halted = false) : m.Ledger m.frames.length mid := by
    have pays := invoke_pays (m := prepared) (frees n (Nat.le_refl n)) (hn n) clear wf' invoked
      unhalted
    exact (sameHeld.ledger _).trans (pays.ledger (Nat.le_refl _))
  cases h with
  | @run mid _ _ entered ran =>
      have invoked := invoke_ok (keep n) ready entered
      obtain ⟨kept, own, running, -, -⟩ :=
        entered_running (d := .strict) (Nat.zero_le _) count invoked
      rw [drop_slack rfl] at running
      have entering : prepared.Upkeep s.config.maxFrames mid :=
        after_of_ok entered ▸ invoke_upkeep (keep n) (upholds keep n) ready cls decl
      have ready' : Discipline.strict.Ready mid := invoke_ready (keep n) ready entered
      have ending := after_of_ok ran ▸ (upholds keep n).run s mid ready'
      refine (invoking entered (Machine.running_before ending.halted unhalted)).trans ?_
      obtain ⟨k, rfl, looped⟩ := reentry_run_ok ran
      exact runLoop_ledger (frees k (Nat.le_succ k)) (hn k) (settles natives k) (upholds keep k)
        (spares (.inr rfl) keep k) (ready' rfl) (entering.wellFormed wf') running looped unhalted
  | done invoked _ => exact invoking invoked unhalted
  | threw invoked _ _ => exact invoking invoked unhalted
  | @uncaught mid _ e _ invoked _ _ delivered =>
      have entering : prepared.Upkeep s.config.maxFrames mid :=
        after_of_ok invoked ▸ invoke_upkeep (keep n) (upholds keep n) ready cls decl
      have delivering := deliverUncaught_frees (frees n (Nat.le_refl n)) delivered
      exact (invoking invoked (Machine.running_before delivering.halted unhalted)).trans
        ((delivering.holds (entering.wellFormed wf') unhalted).ledger _)

/-- Within every budget, a call gives back what it enters. -/
theorem frees (n : Nat) : (reentry natives n).Frees := by
  have keep (n : Nat) : natives.Keep .strict (reentry natives n) := (hn n).keep
  induction n using Nat.strong_induction_on with
  | h n ih =>
      intro cls decl args s m m' i clear called
      have upkeep : m.Upkeep s.config.maxFrames m' :=
        after_of_ok called ▸ (upholds keep n).call cls decl args s m fun _ => clear
      refine ⟨upkeep.wellFormed, upkeep.halted, fun wf unhalted => ?_⟩
      obtain ⟨n, rfl, called⟩ := reentry_call_ok called
      obtain ⟨count, events, outcome, ran, k, outer, ran', -, concluded⟩ := execute_ok called
      have sameFrames : (ran.withDepths outer).SameFrames m' :=
        (conclude_keeps _ _ _).of_ok concluded
      have unhalted' : ran.world.halted = false :=
        Machine.running_before (m := ran) sameFrames.halted unhalted
      have closed : ran.SameHeldMonitors (ran.withDepths outer) := ⟨⟨rfl, rfl, rfl⟩, rfl⟩
      have ledger : m.Ledger m.frames.length m' :=
        (ran_ledger hn (fun k le => ih k (Nat.lt_succ_of_le le)) wf clear count ran'
          unhalted').trans ((closed.ledger _).trans
            (Machine.SameHeldMonitors.ledger ((conclude_keeps _ _ _).of_ok concluded) _))
      have left : ran.frames = m.frames := ran_frames keep wf clear count ran' unhalted'
      have frames : m'.frames = m.frames := sameFrames.frames_eq.trans left
      refine ⟨by rw [Machine.held, frames], ?_⟩
      rw [Machine.Ledger, Machine.owed_of_le (Nat.le_refl _),
        Machine.owed_of_le (Nat.le_of_eq (congrArg List.length frames))] at ledger
      exact ledger

/-- A call releases its monitors.

When it returns or ends in an exception, the thread has to exit no monitor more often than before,
and as often as before if every instruction that exited a monitor found it among those of its own
frame.  A thread that owned no monitor owns none. -/
theorem call_releases {n : Nat} {cls : LoadedClass} {decl : MethodDecl} {args : List Value}
    {s : Settings} {m m' : Machine} {i : Invocation} (wf : m.thread.WellFormed)
    (clear : m.thread.pending = none) (h : call natives n cls decl args s m = .ok i m')
    (unhalted : m'.world.halted = false) :
    (∀ k, (m'.world.monitors.get k).entries m.thread.id ≤
      (m.world.monitors.get k).entries m.thread.id) ∧
    (m'.thread.strays = m.thread.strays → ∀ k, (m'.world.monitors.get k).entries m.thread.id =
      (m.world.monitors.get k).entries m.thread.id) ∧
    ((∀ k, (m.world.monitors.get k).isOwnedBy m.thread.id = false) →
      ∀ k, (m'.world.monitors.get k).isOwnedBy m.thread.id = false) := by
  have accounts := ((frees hn n clear h).holds wf unhalted).accounts
  have entries (k : MonitorKey) :
      m'.entries k = (m'.world.monitors.get k).entries m.thread.id := by
    rw [Machine.entries, accounts.id]
    rfl
  have bound (k : MonitorKey) : (m'.world.monitors.get k).entries m.thread.id ≤
      (m.world.monitors.get k).entries m.thread.id := by
    rw [← entries]
    exact accounts.bound k _ (Nat.le_refl _)
  refine ⟨bound, fun none k => ?_, fun free k => ?_⟩
  · rw [← entries]
    exact accounts.exact none k _ rfl
  · have unowned (k : MonitorKey) : ¬ (m.world.monitors.get k).owner = some m.thread.id := by
      simpa [Monitor.isOwnedBy] using free k
    have sound : m'.world.monitors.Sound m.thread.id :=
      accounts.sound fun k owned => absurd owned (unowned k)
    refine (sound k).free_of_entries (Nat.le_zero.mp (Nat.le_trans (bound k) ?_))
    rw [Monitor.entries, if_neg (unowned k)]

end Tidy

/-- An exception leaves a synchronized method that has entered its monitor once more. -/
theorem call_releases_thrown :
    let args := [.object ⟨0⟩, .object ⟨1⟩, .object ⟨0⟩]
    ∃ m', call coreNatives 7 Sample.group Sample.holding args {} (Sample.nested 1) =
        .ok (.threw ⟨0⟩) m' ∧ ∀ k, (m'.world.monitors.get k).isOwnedBy 0 = false := by
  intro args
  have ended : Sample.thrown (call coreNatives 7 Sample.group Sample.holding args)
      (Sample.nested 1) = some (⟨0⟩, some ⟨0⟩, []) := by decide +kernel
  obtain ⟨m', run, -⟩ := Sample.thrown_eq_some ended
  have unhalted : ((call coreNatives 7 Sample.group Sample.holding args).after {}
      (Sample.nested 1)).world.halted = false := by decide +kernel
  rw [after_of_ok run] at unhalted
  have wf : (Sample.nested 1).thread.WellFormed :=
    ⟨.nil, by simp [Sample.nested, Sample.grouped], by simp [Sample.nested, Sample.grouped],
      Nat.le_refl 0⟩
  obtain ⟨-, -, free⟩ := call_releases (fun n => coreNatives_tidy _) wf rfl run unhalted
  exact ⟨m', run, free fun _ => rfl⟩

/-- While an exception is pending, a call of a method that only returns lets the frame of the caller
catch the exception and enter a monitor. -/
theorem call_unreleased_pending :
    Sample.locking.thread.WellFormed ∧
    ∃ m', call coreNatives 7 Sample.returning (Sample.method [0xb1] []) [] {} Sample.locking =
        .ok (.returned none) m' ∧ m'.world.halted = false ∧
      (Sample.locking.world.monitors.get (.entry 0)).entries 0 <
        (m'.world.monitors.get (.entry 0)).entries 0 := by
  refine ⟨⟨List.pairwise_singleton _ _, ?_, ?_, Nat.le_refl 1⟩, ?_⟩
  · simp [Sample.locking, Sample.machine, Sample.frame]
  · simp [Sample.locking, Sample.machine, Sample.frame]
  · have ended : Sample.returned (call coreNatives 7 Sample.returning (Sample.method [0xb1] []) [])
        Sample.locking (.entry 0) = some (false, 1) := by decide +kernel
    obtain ⟨m', run, unhalted, entries⟩ := Sample.returned_eq_some ended
    refine ⟨m', run, unhalted, ?_⟩
    rw [show (m'.world.monitors.get (.entry 0)).entries 0 = 1 from entries]
    decide

end Engine

end JavaMachine
