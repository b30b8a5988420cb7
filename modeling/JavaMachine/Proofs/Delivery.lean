import JavaMachine.Proofs.Keeping
import JavaMachine.Proofs.Balance

/-!
# Exceptions are delivered once

An exception that leaves the outermost run of a thread is handed to the thread's group, by a call
like any other.  The level of the thread decides what is outermost: a run delivers what leaves it
when it is the first one in progress, and a call that enters no frame delivers what is pending when
no run is in progress.  So nothing is delivered while a run is in progress, except by that run at
its very end; this is `Machine.Mute`, and the engine keeps it whatever the natives do.

A call of a method that runs in a frame, made while no run is in progress, therefore delivers at
most one exception: the method of the group runs inside the run that delivers, and what it throws is
dropped.  Without a frame there is no run around the delivery, and then the method of the group is
outermost itself: what it throws is delivered to it again.
-/

namespace JavaMachine

/-- The exceptions that were handed to the groups of their threads, newest first. -/
def World.deliveries (w : World) : List Handle :=
  w.history.filterMap fun
    | .delivered e => some e
    | _ => none

/-- As many runs are in progress in two machines, and nothing was delivered in between.  A native
can do nothing else by itself. -/
structure Machine.SameLevelDeliveries (m m' : Machine) : Prop where
  /-- The level is the same. -/
  level : m'.thread.level = m.thread.level
  /-- The deliveries are the same. -/
  deliveries : m'.world.deliveries = m.world.deliveries

theorem Machine.Core.deliveries {m m' : Machine} (h : m.Core m') :
    m'.world.deliveries = m.world.deliveries := by
  simp only [World.deliveries, h.world.history]

instance : AllowsCore Machine.SameLevelDeliveries where
  refl _ := ⟨rfl, rfl⟩
  trans _ _ _ first second :=
    ⟨second.level.trans first.level, second.deliveries.trans first.deliveries⟩
  core same _ _ _ := ⟨same.level, same.deliveries⟩

instance : AllowsMemory Machine.SameLevelDeliveries where
  memory sameClasses := ⟨rfl, Machine.Core.deliveries ⟨rfl, rfl, sameClasses.toSameClasses⟩⟩

/-! ## Nothing is delivered inside a run -/

/-- If a run is in progress in the first machine, then it still is in the second one, and no
exception was delivered in between. -/
def Machine.Mute (m m' : Machine) : Prop :=
  0 < m.thread.level →
    m.thread.level ≤ m'.thread.level ∧ m'.world.deliveries = m.world.deliveries

theorem Machine.SameLevelDeliveries.mute {m m' : Machine} (h : m.SameLevelDeliveries m') :
    m.Mute m' :=
  fun _ => ⟨Nat.le_of_eq h.level.symm, h.deliveries⟩

instance : AllowsCore Machine.Mute where
  refl _ := fun _ => ⟨Nat.le_refl _, rfl⟩
  trans _ _ _ first second := by
    intro inside
    obtain ⟨up, same⟩ := first inside
    obtain ⟨up', same'⟩ := second (Nat.lt_of_lt_of_le inside up)
    exact ⟨Nat.le_trans up up', same'.trans same⟩
  core same frozen stirs confined :=
    Machine.SameLevelDeliveries.mute (AllowsCore.core same frozen stirs confined)

namespace Exec

variable {α β : Type} {host : Host} {s : Settings} {m : Machine}

theorem record_mute {o : Occurrence} (other : ∀ e, o ≠ .delivered e) :
    Keeps Machine.Mute (record o) := by
  intro s m inside
  refine ⟨Nat.le_refl _, ?_⟩
  cases o with
  | delivered e => exact absurd rfl (other e)
  | moved => rfl
  | started => rfl
  | used => rfl

theorem setInitState_mute (id : Nat) (i : InitState) : Keeps Machine.Mute (setInitState id i) := by
  refine (initState_keeps id).bind fun _ => (record_mute (by simp)).bind fun _ => ?_
  exact fun _ _ _ => ⟨Nat.le_refl _, rfl⟩

theorem useClass_mute (id : Nat) : Keeps Machine.Mute (useClass id) :=
  thread_keeps.bind fun _ => (initState_keeps id).bind fun _ => record_mute (by simp)

theorem mute_lax : (Ways.keeping Machine.Mute).Lax Machine.SameLevelDeliveries :=
  Ways.keeping_lax Machine.SameLevelDeliveries.mute

/-- Bringing a class into use delivers nothing inside a run. -/
theorem ensureInitialisedWithin_mute (hr : host.toReentry.Goes (.keeping Machine.Mute)) :
    ∀ (n : Nat) (cls : LoadedClass),
      Goes (.keeping Machine.Mute) (ensureInitialisedWithin host n cls) :=
  ensureInitialisedWithin_goes mute_lax hr (fun id i => (setInitState_mute id i).goes)
    fun _ _ => (record_mute (by simp)).goes

section Mute

variable (hn : host.natives.Abide Machine.SameLevelDeliveries host.toReentry)
  (hr : host.toReentry.Goes (.keeping Machine.Mute))

include hn hr

theorem step_mute : Keeps Machine.Mute (step host) :=
  have hi := invoke_goes mute_lax hn hr
  (step_goes mute_lax hi (.of_initialises mute_lax hi (ensureInitialisedWithin_mute hr)
    (fun id => (useClass_mute id).goes) (.own mute_lax) (.own mute_lax))).keeps

/-- A call that enters no frame does not deliver an exception inside a run. -/
theorem invokeAndRun_mute (cls : LoadedClass) (decl : MethodDecl) :
    Keeps Machine.Mute (invokeAndRun host cls decl) := by
  intro s m inside
  have invoking : Keeps Machine.Mute _ := (invoke_goes mute_lax hn hr cls decl).keeps
  cases invoked : invoke host cls decl s m with
  | error stop mid =>
      rw [invokeAndRun, after_of_error (bind_of_error invoked)]
      exact invoking.of_error invoked inside
  | ok entered mid =>
      have first : m.Mute mid := invoking.of_ok invoked
      have nested : mid.thread.level ≠ 0 := by
        have up := (first inside).1
        omega
      cases entered with
      | true =>
          have run : (invokeAndRun host cls decl).after s m = host.run.after s mid := by
            simp only [after, invokeAndRun, bind_of_ok invoked, if_true]
          rw [run]
          exact IsTrans.trans _ _ _ first (hr.run.keeps s mid) inside
      | false =>
          have run : (invokeAndRun host cls decl).after s m = mid := by
            simp only [after, invokeAndRun, bind_of_ok invoked, Bool.false_eq_true, if_false,
              bind_of_ok thread_run, nested]
            cases mid.thread.pending <;> rfl
          rw [run]
          exact first inside

/-- A run inside another one delivers nothing, because it is not the outermost one. -/
theorem runLoop_mute (n : Nat) : Keeps Machine.Mute (runLoop host n) := by
  intro s m inside
  have turning : Goes (.keeping Machine.Mute) (turn host (m.thread.level + 1)) :=
    turn_goes mute_lax (step_mute hn hr).goes fun outermost => by omega
  have looping := (loop_goes mute_lax turning n).keeps
  have start : 0 < (m.atLevel (m.thread.level + 1)).thread.level := Nat.succ_pos _
  cases ran : runLoop host n s m with
  | ok o m' =>
      rw [after_of_ok ran]
      obtain ⟨mid, looped, rfl⟩ := runLoop_ok ran
      obtain ⟨up, same⟩ := looping.of_ok looped start
      exact ⟨Nat.le_sub_of_add_le up, same⟩
  | error stop m' =>
      rw [after_of_error ran]
      obtain ⟨mid, looped, ⟨-, rfl⟩ | ⟨-, rfl⟩⟩ := runLoop_error ran
      · obtain ⟨up, same⟩ := looping.of_error looped start
        exact ⟨Nat.le_sub_of_add_le up, same⟩
      · obtain ⟨up, same⟩ := looping.of_error looped start
        exact ⟨Nat.le_of_succ_le up, same⟩

end Mute

/-! ## The outermost run delivers at most one exception -/

/-- A computation inside a run delivers at most one exception, and if it does, then its answer is
of a kind. -/
def Delivers (last : α → Prop) (x : Exec α) : Prop :=
  ∀ (s : Settings) (m : Machine), 0 < m.thread.level → m.Mute (x.after s m) ∨
    (∃ e, (x.after s m).world.deliveries = e :: m.world.deliveries) ∧
      ∀ a m', x s m = .ok a m' → last a

namespace Delivers

variable {last : α → Prop} {x : Exec α} {f : α → Exec β}

theorem of_mute (hx : Keeps Machine.Mute x) : Delivers last x := fun s m _ => .inl (hx s m)

/-- What comes in front of a delivery delivers nothing. -/
theorem bind {last : β → Prop} (hx : Keeps Machine.Mute x) (hf : ∀ a, Delivers last (f a)) :
    Delivers last (x >>= f) := by
  intro s m inside
  cases first : x s m with
  | error stop mid =>
      rw [after_of_error (bind_of_error first)]
      exact .inl (hx.of_error first)
  | ok a mid =>
      have mute : m.Mute mid := hx.of_ok first
      obtain ⟨up, same⟩ := mute inside
      have run : (x >>= f).after s m = (f a).after s mid := by
        simp only [after, bind_of_ok first]
      rw [run, bind_of_ok first]
      rcases hf a s mid (Nat.lt_of_lt_of_le inside up) with quiet | ⟨⟨e, more⟩, answers⟩
      · exact .inl (IsTrans.trans _ _ _ mute quiet)
      · exact .inr ⟨⟨e, by rw [more, same]⟩, answers⟩

theorem map (hx : Delivers last x) {last' : β → Prop} {g : α → β} (hg : ∀ a, last' (g a)) :
    Delivers last' (g <$> x) := by
  have same (s : Settings) (m : Machine) : (g <$> x).after s m = x.after s m := by
    cases run : x s m with
    | ok a m' =>
        rw [after_of_ok run, map_eq_pure_bind, after_of_ok (a := g a) (by rw [bind_of_ok run]; rfl)]
    | error stop m' =>
        rw [after_of_error run, map_eq_pure_bind, after_of_error (bind_of_error run)]
  intro s m inside
  rw [same]
  refine (hx s m inside).imp_right fun ⟨more, _⟩ => ⟨more, fun b m' h => ?_⟩
  obtain ⟨a, -, rfl⟩ := map_eq_ok h
  exact hg a

end Delivers

/-- Handing an exception over is one delivery, if nothing is delivered after it. -/
theorem record_delivers (e : Handle) {rest : Unit → Exec β} (hrest : Keeps Machine.Mute (rest ())) :
    Delivers (fun _ => True) (record (.delivered e) >>= rest) := by
  intro s m inside
  let handed : Machine :=
    { m with world := { m.world with history := .delivered e :: m.world.history } }
  have run : (record (.delivered e) >>= rest).after s m = (rest ()).after s handed := by
    simp only [after, bind_of_ok (x := record (.delivered e)) (s := s) (m := m) rfl, handed]
  have more : handed.world.deliveries = e :: m.world.deliveries := rfl
  obtain ⟨-, same⟩ := hrest s handed inside
  rw [run]
  exact .inr ⟨⟨e, same.trans more⟩, fun _ _ _ => trivial⟩

/-- The method of the group runs inside the run that delivers, and what it throws is dropped. -/
theorem deliverUncaught_delivers (hr : host.toReentry.Goes (.keeping Machine.Mute))
    (exception : Handle) :
    Delivers (fun _ => True) (deliverUncaught host exception) := by
  rw [deliverUncaught_eq]
  refine .bind takePending_keeps fun _ => .bind (seekGroup_keeps _) fun group => ?_
  cases group with
  | none => exact .of_mute (Keeps.bind (.pure _) fun _ => .pure _)
  | some group =>
      rw [callGroup, bind_assoc]
      refine record_delivers exception (Keeps.bind ?_ fun _ => .pure _)
      exact (hr.call _ _ _).keeps.bind fun i => dropSecond_keeps i

/-- The search for a handler goes on or finds one only when nothing was delivered. -/
theorem unwind_delivers (hr : host.toReentry.Goes (.keeping Machine.Mute))
    (exception : Handle) (cls : String)
    (level : Nat) : ∀ n : Nat, Delivers (·.isSome) (unwind host exception cls level n)
  | 0 => .of_mute (.throw _)
  | n + 1 => by
      unfold unwind
      refine .bind frame_keeps fun f => .bind library_keeps fun lib => ?_
      split
      · exact .of_mute ((report_keeps _).bind fun _ => (catchException_core _ _).bind fun _ =>
          .pure _)
      · refine .bind popFrame_core.discard fun _ => .bind leaveDepth_core fun left => ?_
        split
        · split
          · exact (deliverUncaught_delivers hr exception).map fun _ => rfl
          · exact .of_mute (.pure _)
        · exact unwind_delivers hr exception cls level n

theorem turn_delivers (hn : host.natives.Abide Machine.SameLevelDeliveries host.toReentry)
    (hr : host.toReentry.Goes (.keeping Machine.Mute)) (level : Nat) :
    Delivers (·.isSome) (turn host level) := by
  unfold turn
  refine .bind stopsHere_keeps fun stops => ?_
  split
  · exact .of_mute (.pure _)
  · have counting : Keeps Machine.Mute safepoint :=
      fun _ _ => safepoint_after fun _ => ⟨Nat.le_refl _, rfl⟩
    refine .bind counting fun _ => .bind (step_mute hn hr) fun flow => ?_
    refine .bind thread_keeps fun t => ?_
    split
    · refine .bind heap_keeps fun h => .bind (.ofExcept _) fun cls => ?_
      exact .bind thread_keeps fun t => unwind_delivers hr _ _ _ _
    · exact .of_mute (.pure _)

/-- A loop ends with the turn that delivers an exception. -/
theorem loop_delivers (hn : host.natives.Abide Machine.SameLevelDeliveries host.toReentry)
    (hr : host.toReentry.Goes (.keeping Machine.Mute)) (level : Nat) :
    ∀ n : Nat, Delivers (fun _ => True) (loop host level n)
  | 0 => .of_mute (.throw _)
  | n + 1 => by
      intro s m inside
      have turning := turn_delivers hn hr level s m inside
      cases turned : turn host level s m with
      | error stop mid =>
          rw [after_of_error turned] at turning
          rw [loop, after_of_error (bind_of_error turned)]
          exact turning.imp_right fun ⟨more, _⟩ => ⟨more, fun _ _ _ => trivial⟩
      | ok answer mid =>
          rw [after_of_ok turned, turned] at turning
          cases answer with
          | some o =>
              have run : loop host level (n + 1) s m = .ok o mid := by
                rw [loop, bind_of_ok turned]
                rfl
              rw [after_of_ok run]
              exact turning.imp_right fun ⟨more, _⟩ => ⟨more, fun _ _ _ => trivial⟩
          | none =>
              have run : (loop host level (n + 1)).after s m = (loop host level n).after s mid := by
                simp only [after, loop, bind_of_ok turned]
              rw [run]
              rcases turning with mute | ⟨-, answers⟩
              · obtain ⟨up, same⟩ := mute inside
                have later := loop_delivers hn hr level n s mid (Nat.lt_of_lt_of_le inside up)
                rcases later with quiet | ⟨⟨e, more⟩, -⟩
                · exact .inl (IsTrans.trans _ _ _ mute quiet)
                · exact .inr ⟨⟨e, by rw [more, same]⟩, fun _ _ _ => trivial⟩
              · exact absurd (answers none mid rfl) Bool.false_ne_true

end Exec

/-- At most one exception was delivered between two machines. -/
def Machine.Once (m m' : Machine) : Prop :=
  m'.world.deliveries = m.world.deliveries ∨
    ∃ e, m'.world.deliveries = e :: m.world.deliveries

theorem Machine.Once.core {m a b m' : Machine} (before : m.Core a) (once : a.Once b)
    (after : b.Core m') : m.Once m' := by
  unfold Once
  rwa [after.deliveries, ← before.deliveries]

namespace Exec

variable {α β : Type} {host : Host} {s : Settings} {m : Machine} {cls : LoadedClass}
  {decl : MethodDecl} {args : List Value}

theorem runLoop_once (hn : host.natives.Abide Machine.SameLevelDeliveries host.toReentry)
    (hr : host.toReentry.Goes (.keeping Machine.Mute)) (n : Nat) (s : Settings) (m : Machine) :
    m.Once ((runLoop host n).after s m) := by
  have delivers := loop_delivers hn hr (m.thread.level + 1) n s
    (m.atLevel (m.thread.level + 1)) (Nat.succ_pos _)
  have once : (m.atLevel (m.thread.level + 1)).Once
      ((loop host (m.thread.level + 1) n).after s (m.atLevel (m.thread.level + 1))) := by
    rcases delivers with mute | ⟨more, -⟩
    · exact .inl (mute (Nat.succ_pos _)).2
    · exact .inr more
  cases ran : runLoop host n s m with
  | ok o m' =>
      obtain ⟨mid, looped, rfl⟩ := runLoop_ok ran
      rw [after_of_ok looped] at once
      rw [after_of_ok ran]
      exact once
  | error stop m' =>
      obtain ⟨mid, looped, ⟨-, rfl⟩ | ⟨-, rfl⟩⟩ := runLoop_error ran
      · rw [after_of_error looped] at once
        rw [after_of_error ran]
        exact once
      · rw [after_of_error looped] at once
        rw [after_of_error ran]
        exact once

/-! ## Methods that run in a frame -/

/-- What comes behind a computation, seen from where the computation ends. -/
theorem Keeps.behind {R : Machine → Machine → Prop} [IsPreorder Machine R] {x : Exec α}
    {f : α → Exec β} (hf : ∀ a, Keeps R (f a)) (s : Settings) (m : Machine) :
    R (x.after s m) ((x >>= f).after s m) := by
  cases run : x s m with
  | ok a mid =>
      have whole : (x >>= f).after s m = (f a).after s mid := by
        simp only [after, bind_of_ok run]
      rw [whole, after_of_ok run]
      exact hf a s mid
  | error stop mid =>
      rw [after_of_error run, after_of_error (bind_of_error run)]
      exact Std.Refl.refl mid

/-- A call with the right number of arguments is prepared, run, and concluded beside the core. -/
theorem execute_after (host : Host) (cls : LoadedClass) (count : args.length = decl.argCount)
    (s : Settings) (m : Machine) :
    ∃ events, ((invokeAndRun host cls decl).after s (m.prepared args events)).Core
      ((execute host cls decl args).after s m) := by
  obtain ⟨events, prepared⟩ := prepare_run (s := s) (m := m) decl args
  refine ⟨events, ?_⟩
  have run : (execute host cls decl args).after s m = (do
      let outcome ← attempt (invokeAndRun host cls decl)
      discard (onThread Thread.closeDepth)
      conclude decl m.thread.operandDepth (← ofExcept outcome) : Exec Invocation).after s
        (m.prepared args events) := by
    unfold after execute
    rw [if_neg (not_not_intro count)]
    simp only [bind_of_ok thread_run, bind_of_ok prepared]
  rw [run, ← after_attempt]
  refine Keeps.behind (fun outcome => ?_) s _
  refine closeDepth_core.discard.bind fun _ => Keeps.bind (.ofExcept _) fun o => ?_
  exact conclude_keeps decl _ o

/-- A method that is neither abstract nor native is invoked in a frame, if there is room for
one. -/
theorem invoke_of_code (abstract : decl.flags.isAbstract = false)
    (native : decl.flags.isNative = false) :
    invoke host cls decl = callMonitor cls decl >>= invokeCode cls decl := by
  simp [invoke, abstract, native]

theorem invoke_entered {entered : Bool} {m' : Machine} (abstract : decl.flags.isAbstract = false)
    (native : decl.flags.isNative = false) (room : m.frames.length < s.config.maxFrames)
    (h : invoke host cls decl s m = .ok entered m') : entered = true := by
  rw [invoke_of_code abstract native] at h
  obtain ⟨monitor, mid, found, h⟩ := bind_eq_ok h
  have sameThread : m.SameThread mid := (callMonitor_keeps cls decl).of_ok found
  rw [invokeCode, bind_of_ok thread_run, bind_of_ok (x := read) (s := s) (m := mid) rfl,
    sameThread.thread, if_neg (Nat.not_le_of_lt room)] at h
  obtain ⟨_, _, _, h⟩ := bind_eq_ok h
  cases h
  rfl

/-- A method that runs in a frame delivers at most what leaves its run. -/
theorem invokeAndRun_once (abstract : decl.flags.isAbstract = false)
    (native : decl.flags.isNative = false) (room : m.frames.length < s.config.maxFrames)
    (hrun : ∀ m : Machine, m.Once (host.run.after s m)) :
    m.Once ((invokeAndRun host cls decl).after s m) := by
  have invoking : Keeps Machine.Core (invoke host cls decl) := by
    rw [invoke_of_code abstract native]
    exact (callMonitor_keeps cls decl).bind fun monitor => invokeCode_core cls decl monitor
  cases invoked : invoke host cls decl s m with
  | error stop mid =>
      rw [invokeAndRun, after_of_error (bind_of_error invoked)]
      exact .inl (invoking.of_error invoked).deliveries
  | ok entered mid =>
      obtain rfl := invoke_entered abstract native room invoked
      have run : (invokeAndRun host cls decl).after s m = host.run.after s mid := by
        simp only [after, invokeAndRun, bind_of_ok invoked, if_true]
      rw [run]
      exact .core (invoking.of_ok invoked) (hrun mid) (Std.Refl.refl _)

end Exec

/-! ## The engine -/

/-- The natives that the machine brings along call no method. -/
theorem coreNatives_abide {O : Machine → Machine → Prop} [AllowsCore O] (r : Reentry) :
    coreNatives.Abide O r :=
  fun _ _ found => .of_keeps (coreNatives_keeps r found) (fun _ _ _ => .own) (fun _ _ _ _ => .own)
    fun _ _ _ _ _ _ => trivial

namespace Sample

/-- The method of a group that throws the exception which is delivered to it. -/
def rethrowing : MethodDecl where
  name := Exec.uncaughtHandler.1
  descriptor := Exec.uncaughtHandler.2
  flags := ⟨0x0001⟩
  className := "G"
  type := ⟨[.reference "java/lang/Thread", .reference "java/lang/Throwable"], .void⟩
  typed := by rfl
  maxStack := 1
  maxLocals := 3
  code := ⟨#[0x2c, 0xbf]⟩
  handlers := []

/-- The class of the group. -/
def group : LoadedClass := { cls with name := "G", methods := [rethrowing], id := 1 }

/-- The class of the errors that abstract methods raise. -/
def errors : LoadedClass := { cls with name := Throwable.abstractMethodError, id := 2 }

/-- A thread whose group throws what is delivered to it, outside all runs. -/
def grouped : Machine where
  world :=
    { library := ⟨[errors, group, cls]⟩
      heap :=
        { cells :=
            #[some ⟨0, .object group []⟩,
              some ⟨1, .object cls [⟨⟨"group", "LG;", ⟨0⟩, "A", .reference "G"⟩, .object ⟨0⟩⟩]⟩]
          live := 2
          made := 2 } }
  thread := { id := 0, threadObject := some ⟨1⟩ }

end Sample

namespace Engine

open Exec

variable {natives : Natives}

/-- Nothing is delivered inside a run, however deep the engine is re-entered. -/
theorem mute (hn : ∀ n, natives.Abide Machine.SameLevelDeliveries (reentry natives n)) :
    ∀ n, (reentry natives n).Goes (.keeping Machine.Mute)
  | 0 => by
      constructor
      · intro cls decl args
        refine Keeps.goes fun s m => ?_
        rw [after_of_error (reentry_call_zero natives cls decl args s m)]
        exact Std.Refl.refl m
      · refine Keeps.goes fun s m => ?_
        rw [after_of_error (reentry_run_zero natives s m)]
        exact Std.Refl.refl m
  | n + 1 => by
      have ih : (host natives n).toReentry.Goes (.keeping Machine.Mute) := mute hn n
      constructor
      · intro cls decl args
        rw [reentry_call_succ]
        exact execute_goes mute_lax (invokeAndRun_mute (hn n) ih cls decl).goes args
      · rw [reentry_run_succ]
        exact (runLoop_mute (hn n) ih n).goes

/-- However a call ends, it delivers no exception when it is made inside a run.  When it is made
outside all runs and its method runs in a frame, it delivers at most one, whatever becomes of that
in the group of the thread. -/
theorem call_delivers_once (hn : ∀ n, natives.Abide Machine.SameLevelDeliveries (reentry natives n))
    (n : Nat)
    (cls : LoadedClass) (decl : MethodDecl) (args : List Value) (s : Settings) (m : Machine) :
    (m.thread.level ≠ 0 →
      ((call natives n cls decl args).after s m).world.deliveries = m.world.deliveries) ∧
    (m.thread.level = 0 → decl.flags.isAbstract = false → decl.flags.isNative = false →
      m.frames.length < s.config.maxFrames →
      ((call natives n cls decl args).after s m).world.deliveries = m.world.deliveries ∨
        ∃ e, ((call natives n cls decl args).after s m).world.deliveries =
          e :: m.world.deliveries) := by
  constructor
  · intro inside
    exact (((mute hn n).call cls decl args).keeps s m (Nat.pos_of_ne_zero inside)).2
  · intro _ abstract native room
    show m.Once (((reentry natives n).call cls decl args).after s m)
    cases n with
    | zero =>
        rw [after_of_error (reentry_call_zero natives cls decl args s m)]
        exact .inl rfl
    | succ n =>
        rw [reentry_call_succ]
        by_cases count : args.length = decl.argCount
        · obtain ⟨events, core⟩ := execute_after (host natives n) cls count s m
          have running (m : Machine) : m.Once ((host natives n).run.after s m) := by
            cases n with
            | zero =>
                rw [after_of_error (reentry_run_zero natives s m)]
                exact .inl rfl
            | succ n =>
                show m.Once ((reentry natives (n + 1)).run.after s m)
                rw [reentry_run_succ]
                exact runLoop_once (hn n) (mute hn n) n s m
          have once : (m.prepared args events).Once
              ((invokeAndRun (host natives n) cls decl).after s (m.prepared args events)) :=
            invokeAndRun_once abstract native room running
          have before : m.Core (m.prepared args events) :=
            ⟨rfl, rfl, rfl, rfl, fun _ => rfl, fun _ _ => .inl, rfl⟩
          exact .core before once core
        · have refused : execute (host natives n) cls decl args s m =
              .error (.fault (.argumentCount decl.signature decl.argCount args.length)) m := by
            unfold execute
            rw [if_pos count]
            rfl
          rw [after_of_error refused]
          exact .inl rfl

/-- What leaves the outermost run is delivered, and what the group throws then is not. -/
theorem call_delivers_once_rethrown :
    ∃ e, ((call coreNatives 7 Sample.group Sample.rethrowing
      [.object ⟨0⟩, .object ⟨1⟩, .object ⟨0⟩]).after {} Sample.grouped).world.deliveries = [e] := by
  obtain ⟨-, outermost⟩ := call_delivers_once (fun n => coreNatives_abide _) 7 Sample.group
    Sample.rethrowing [.object ⟨0⟩, .object ⟨1⟩, .object ⟨0⟩] {} Sample.grouped
  rcases outermost rfl rfl rfl (by decide) with none | one
  · have some : ((call coreNatives 7 Sample.group Sample.rethrowing
        [.object ⟨0⟩, .object ⟨1⟩, .object ⟨0⟩]).after {} Sample.grouped).world.deliveries ≠ [] := by
      decide +kernel
    exact absurd none some
  · exact one

/-- The error of an abstract method is delivered outside all runs, and then what the group throws
is delivered too. -/
theorem call_delivers_twice :
    let abstract := { Sample.method [] [] with flags := ⟨0x0409⟩ }
    Sample.grouped.thread.level = 0 ∧ Sample.grouped.thread.depths = [] ∧
    Sample.grouped.world.deliveries = [] ∧
    ((call coreNatives 7 Sample.cls abstract []).after {} Sample.grouped).world.deliveries =
      [⟨2⟩, ⟨2⟩] := by
  exact ⟨rfl, rfl, rfl, by decide +kernel⟩

end Engine

end JavaMachine
