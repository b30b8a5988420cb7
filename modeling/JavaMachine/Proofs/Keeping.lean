import JavaMachine.Proofs.Steps
import JavaMachine.Proofs.Turns

/-!
# What the whole engine keeps

Some relations between machines look at so little that hardly any function can break them: at the
identity and the level of the thread, at the initialisation of the classes, at the history.
`Machine.Core` is what such relations look at.  A relation that allows everything that leaves the
core alone is kept by every function that neither calls a method, brings a class into use nor
delivers an exception, and there is one lemma for each of these.

What is left are the places where the engine is re-entered.  They are hypotheses here: if they go in
some ways, then so do an instruction, a turn, a loop and a call.  `Goes` is `Along` without
conditions, and the ways have to be `Lax`: nothing matters to them that a native may do by itself,
and a fault may be caught.  Two kinds of ways are meant.  `keeping R`: the relation holds however a
computation ends.  `lasting R`: it holds of a computation that has a result or stops in a fault.

Of a native nothing is assumed but that all it does beside re-entering the engine keeps a relation,
which is a parameter of the lemmas and has to allow whatever leaves the core alone.
-/

namespace JavaMachine

open Relation (ReflTransGen)

/-! ## The core of a machine -/

/-- Two machines have the same core: their threads are the same one, at the same level, and their
classes and their histories are the same. -/
structure Machine.Core (m m' : Machine) : Prop where
  /-- The thread is the same one. -/
  id : m'.thread.id = m.thread.id
  /-- As many runs are in progress. -/
  level : m'.thread.level = m.thread.level
  /-- The classes and the history are the same. -/
  world : m.world.SameClasses m'.world

/-- A relation between machines that looks at nothing but the core, the memory, what becomes of a
machine that is halted, and where return addresses are. -/
class AllowsCore (R : Machine → Machine → Prop) : Prop extends IsPreorder Machine R where
  /-- Anything may change beside the core, and the memory may be stirred.  A halted machine starts no
  instruction, and return addresses stay in their frames. -/
  core : ∀ {m m' : Machine}, m.Core m' → m.Frozen m' → m.world.Stirs m'.world → m.Confined m' →
    R m m'

instance : AllowsCore Machine.Core where
  refl m := ⟨rfl, rfl, .refl m.world⟩
  trans _ _ _ first second :=
    ⟨second.id.trans first.id, second.level.trans first.level, first.world.trans second.world⟩
  core same _ _ _ := same

/-- Two threads are the same one, at the same level, and have started as many instructions.  Return
addresses stayed in their frames, or there were leaks. -/
structure Thread.Kin (t t' : Thread) : Prop where
  /-- The thread is the same one. -/
  id : t'.id = t.id
  /-- As many runs are in progress. -/
  level : t'.level = t.level
  /-- As many instructions were started. -/
  executed : t'.executed = t.executed
  /-- As many of them were started while the machine was halted. -/
  late : t'.late = t.late
  /-- What has leaked is not forgotten. -/
  leaks : t.leaks ≤ t'.leaks
  /-- If there were no leaks, then the frames own what they hold. -/
  owned : t'.leaks = t.leaks → t.Owned → t'.Owned

/-- The frames and the operands of a thread are the same. -/
theorem Thread.Kin.of_stacks {t t' : Thread} (id : t'.id = t.id) (level : t'.level = t.level)
    (executed : t'.executed = t.executed) (late : t'.late = t.late) (leaks : t'.leaks = t.leaks)
    (frames : t'.frames = t.frames) (operands : t'.operands = t.operands) : t.Kin t' := by
  refine ⟨id, level, executed, late, leaks.ge, fun _ owned => ?_⟩
  rwa [Owned, frames, operands]

namespace AllowsCore

variable {R : Machine → Machine → Prop} [AllowsCore R] {m m' : Machine}

/-- Anything may change about a thread beside the core. -/
theorem thread {t : Thread} (kin : m.thread.Kin t) : R m { m with thread := t } :=
  core ⟨kin.id, kin.level, .refl _⟩ ⟨id, fun _ => kin.executed, kin.late⟩ (.refl _)
    (Machine.confined_thread kin.leaks fun unleaked tight => kin.owned unleaked tight.thread)

/-- Anything may change about a world that leaves the classes and the history alone. -/
theorem sameClasses (thread : m'.thread = m.thread) (classes : m.world.SameClasses m'.world)
    (halted : m.world.halted = true → m'.world.halted = true) (stirs : m.world.Stirs m'.world) :
    R m m' := by
  obtain ⟨w, t⟩ := m'
  cases thread
  exact core ⟨rfl, rfl, classes⟩ ⟨halted, fun _ => rfl, rfl⟩ stirs (Machine.confined_world stirs)

theorem within (h : m.WithinSameMonitors m') : R m m' :=
  core ⟨h.id, h.level, h.world.toSameClasses⟩ h.frozen h.world.stirs h.confined

end AllowsCore

instance {R : Machine → Machine → Prop} [AllowsCore R] : AllowsFrame R where
  world stirs := AllowsCore.within (AllowsWorld.world stirs)
  operands reworked held := AllowsCore.within (AllowsOperands.operands reworked held)
  frame current onward reworked held :=
    AllowsCore.within (AllowsFrame.frame current onward reworked held)

instance {R : Machine → Machine → Prop} [AllowsCore R] : AllowsRaise R where
  raise pending := AllowsCore.within (AllowsRaise.raise pending)

namespace Exec

variable {α : Type} {R : Machine → Machine → Prop} [AllowsCore R] {host : Host}

/-! ## Threads and monitors -/

theorem modifyThread_core {g : Thread → Thread} (kin : ∀ t : Thread, t.Kin (g t)) :
    Keeps R (modifyThread g) := fun _ m => AllowsCore.thread (kin m.thread)

theorem onThread_core {f : Thread → Except Fault (α × Thread)}
    (hf : ∀ t a t', f t = .ok (a, t') → t.Kin t') : Keeps R (onThread f) :=
  onThread_keeps fun m a t h => AllowsCore.thread (hf m.thread a t h)

theorem moveFrame_core {f : Frame → Except Fault Frame}
    (hf : ∀ g g', f g = .ok g' → g.Carries g') : Keeps R (moveFrame f) :=
  moveFrame_moves fun _ g _ g' current h => AllowsCore.thread
    ⟨rfl, rfl, rfl, rfl, Nat.le_refl _, fun _ owned => owned.carry current (hf g g' h)⟩

theorem modifyMonitors_core (g : World → Monitors) :
    Keeps R (modifyWorld fun w => { w with monitors := g w }) := by
  intro s m
  exact AllowsCore.sameClasses rfl ⟨rfl, rfl, fun _ => rfl, fun _ _ => .inl, rfl⟩ id
    (.beside rfl rfl rfl rfl rfl rfl rfl)

theorem enterMonitor_core (k : MonitorKey) : Keeps R (enterMonitor k) := by
  unfold enterMonitor
  refine get_keeps.bind fun m => ?_
  split
  · exact modifyMonitors_core _
  · exact .throw _

theorem exitMonitor_core (k : MonitorKey) : Keeps R (exitMonitor k) :=
  get_keeps.bind fun _ => .bind (modifyMonitors_core _) fun _ => .pure _

theorem pushMonitor_core (k : MonitorKey) : Keeps R (pushMonitor k) :=
  frame_keeps.bind fun _ => (enterMonitor_core k).bind fun _ =>
    moveFrame_core fun _ _ h => by cases h; exact ⟨rfl, rfl, rfl⟩

theorem popMonitor_core (k : MonitorKey) : Keeps R (popMonitor k) :=
  .bind (moveFrame_core fun _ _ h => by cases h; exact ⟨rfl, rfl, rfl⟩) fun _ => exitMonitor_core k

theorem countStray_core (k : MonitorKey) : Keeps R (countStray k) := by
  refine modifyThread_core fun t => ?_
  split <;> exact .of_stacks rfl rfl rfl rfl rfl rfl rfl

theorem monitorEnter_core : Keeps R monitorEnter := by
  unfold monitorEnter
  refine pop_keeps.bind fun v => (monitorOf_keeps v).bind fun monitor => ?_
  split
  · exact pushMonitor_core _
  · exact raise_keeps _ _

theorem monitorExit_core : Keeps R monitorExit := by
  unfold monitorExit
  refine pop_keeps.bind fun v => (monitorOf_keeps v).bind fun monitor => ?_
  split
  · exact raise_keeps _ _
  · refine (countStray_core _).bind fun _ => (popMonitor_core _).bind fun owned => ?_
    split
    · exact .pure _
    · exact raise_keeps _ _

/-! ## Frames -/

/-- A frame is entered with what was taken off the stack; a return address among it is counted. -/
theorem pushFrame_core (cls : LoadedClass) (decl : MethodDecl) : Keeps R (pushFrame cls decl) := by
  intro s m
  refine Keeps.bind_after (thread_keeps s m) fun t mid read => ?_
  cases read
  split
  · exact Keeps.fail _ s m
  next enough =>
    refine Keeps.bind_after (truncateArgs_allowed enough) fun _ cut taken => ?_
    cases taken
    refine Keeps.ofExcept_after fun locals _ => ?_
    refine Keeps.bind_after (report_keeps _ s _) fun _ told reported => ?_
    have sameThread : Machine.SameThread _ told := (report_keeps _).of_ok reported
    refine AllowsCore.thread ⟨rfl, rfl, rfl, rfl, Nat.le_add_right _ _, fun unleaked owned => ?_⟩
    refine owned.enter ?_ fun v listed => ?_
    · rw [sameThread.thread]
      show _ = (m.thread.operands.take (m.thread.operands.size - decl.argCount)).toList.length
      rw [Operand.toList_take, List.length_take, Array.length_toList]
      exact (Nat.min_eq_left (Nat.sub_le _ _)).symm
    · have none := Array.countP_eq_zero.mp (Nat.add_eq_left.mp unleaked) v listed
      rwa [Bool.not_eq_true] at none

/-- The operands that are left are those of the frames below. -/
theorem popFrame_core : Keeps R popFrame := by
  intro s m
  cases current : m.thread.frames with
  | nil =>
      rw [popFrame, after_of_error (bind_of_error (frame_of_nil current))]
      exact Std.Refl.refl m
  | cons f rest =>
      obtain ⟨events, run⟩ := popFrame_run (s := s) current
      rw [after_of_ok run]
      have left : R m { m with thread := (m.without [f] m.thread.depths events).thread } := by
        refine AllowsCore.thread ⟨rfl, rfl, rfl, rfl, Nat.le_refl _, fun _ owned => ?_⟩
        have reaches := owned.reaches
        have under := owned.under current
        rw [Thread.stackBase_of_cons current, Array.length_toList] at reaches
        simp only [Thread.Owned, Machine.without, current, List.length_singleton, List.drop_succ_cons,
          List.drop_zero, Operand.toList_take, Frame.roof, List.foldl_cons, List.foldl_nil,
          Nat.min_eq_right reaches]
        exact under
      exact IsTrans.trans _ _ _ left (AllowsCore.sameClasses rfl
        ⟨rfl, rfl, fun _ => rfl, fun _ _ => .inl, rfl⟩ id (.beside rfl rfl rfl rfl rfl rfl rfl))

theorem leaveDepth_core : Keeps R leaveDepth := by
  refine onThread_core fun t n t' h => ?_
  unfold Thread.shallow at h
  split at h
  · cases h
    exact .of_stacks rfl rfl rfl rfl rfl rfl rfl
  · cases h
  · cases h

theorem closeDepth_core : Keeps R (onThread Thread.closeDepth) := by
  refine onThread_core fun t n t' h => ?_
  unfold Thread.closeDepth at h
  split at h
  · cases h
    exact .of_stacks rfl rfl rfl rfl rfl rfl rfl
  · cases h

theorem enterFrame_core (cls : LoadedClass) (decl : MethodDecl) (monitor : Option MonitorKey) :
    Keeps R (enterFrame cls decl monitor) := by
  refine (pushFrame_core cls decl).bind fun _ => ?_
  refine Keeps.bind (.forM_option pushMonitor_core monitor) fun _ => Keeps.discard ?_
  refine onThread_core fun t n t' h => ?_
  unfold Thread.deepen at h
  split at h
  · cases h
    exact .of_stacks rfl rfl rfl rfl rfl rfl rfl
  · cases h

theorem invokeCode_core (cls : LoadedClass) (decl : MethodDecl) (monitor : Option MonitorKey) :
    Keeps R (invokeCode cls decl monitor) := by
  unfold invokeCode
  refine thread_keeps.bind fun t => read_keeps.bind fun s => ?_
  split
  · exact (report_keeps _).bind fun _ => (raise_keeps _ _).bind fun _ => .pure _
  · exact (enterFrame_core cls decl monitor).bind fun _ => .pure _

theorem catchException_core (h : Handler) (exception : Handle) :
    Keeps R (catchException h exception) := by
  refine (rewind_keeps _).bind fun _ => (jump_keeps _).bind fun _ => ?_
  exact (push_keeps rfl).bind fun _ => takePending_keeps.bind fun _ => .pure _

/-- A value comes from another frame; a return address is counted. -/
theorem hand_core (v : Value) : Keeps R (hand v) := by
  refine modifyThread_core fun t => ⟨rfl, rfl, rfl, rfl, Nat.le_add_right _ _, fun unleaked owned => ?_⟩
  have plain : v.isReturnAddress = false := by
    cases v with
    | returnAddress => exact absurd unleaked (Nat.succ_ne_self _)
    | _ => rfl
  exact owned.push (o := ⟨v, t.instructionPc⟩) (.of_plain plain)

theorem leave_core (v : Option Value) : Keeps R (leave v) := by
  refine popFrame_core.discard.bind fun _ => Keeps.bind (.forM_option hand_core v) fun _ => ?_
  refine leaveDepth_core.bind fun n => ?_
  split <;> exact .pure _

theorem returnValue_core : Keeps R returnValue := by
  refine frame_keeps.bind fun f => pop_keeps.bind fun v => ?_
  exact Keeps.bind (.ofExcept _) fun v => leave_core _

theorem returnVoid_core : Keeps R returnVoid := by
  unfold returnVoid
  refine frame_keeps.bind fun f => (leave_core none).bind fun flow => ?_
  dsimp only
  split
  · exact .bind (modifyThread_core fun _ => .of_stacks rfl rfl rfl rfl rfl rfl rfl) fun _ => .pure _
  · exact .pure _

theorem fetch_core : Keeps R fetch :=
  .bind (moveFrame_core fun _ _ h => by cases h; exact ⟨rfl, rfl, rfl⟩) fun _ =>
    readU8_keeps.bind fun byte => traceOpcode_keeps byte

theorem prepare_core (decl : MethodDecl) (args : List Value) : Keeps R (prepare decl args) := by
  refine thread_keeps.bind fun t => (report_keeps _).bind fun _ => ?_
  exact Keeps.bind (.forM_list hand_core args) fun _ =>
    modifyThread_core fun _ => .of_stacks rfl rfl rfl rfl rfl rfl rfl

end Exec

/-! ## Lax ways -/

/-- Ways to which nothing matters that keeps a relation, and in which a fault may be caught. -/
structure Ways.Lax (O : Machine → Machine → Prop) (w : Ways) : Prop where
  /-- What keeps the relation is a step. -/
  step : ∀ {s : Settings} {m m' : Machine}, O m m' → w.step s m m'
  /-- A computation may stop after that. -/
  stop : ∀ {s : Settings} {stop : Stop} {m m' : Machine}, O m m' → w.stop s stop m m'
  /-- A computation that stops may be tidied up after. -/
  tidied : ∀ {s : Settings} {stop : Stop} {m mid m' : Machine}, w.stop s stop m mid →
    O mid m' → w.stop s stop m m'
  /-- A computation that stops in a fault has taken a step. -/
  caught : ∀ {s : Settings} {e : Fault} {m m' : Machine}, w.stop s (.fault e) m m' →
    w.step s m m'

section Lax

variable {O : Machine → Machine → Prop}

namespace Exec

/-- A computation goes in some ways. -/
abbrev Goes {α : Type} (w : Ways) (x : Exec α) : Prop :=
  Along w (fun _ => True) x fun _ _ => True

namespace Goes

variable {α β : Type} {x : Exec α} {f : α → Exec β} {w : Ways}

theorem pure (a : α) : Goes w (Pure.pure a : Exec α) := Along.pure a fun _ _ => trivial

theorem bind (hx : Goes w x) (hf : ∀ a, Goes w (f a)) : Goes w (x >>= f) := Along.bind hx hf

theorem own (hw : w.Lax O) (hx : Keeps O x) : Goes w x :=
  .of_keeps hx (fun _ _ _ => hw.step) (fun _ _ _ _ => hw.stop) fun _ _ _ _ _ _ => trivial

theorem attempt (hw : w.Lax O) (hx : Goes w x) : Goes w (attempt x) := by
  intro s m _
  cases run : x s m with
  | ok a mid =>
      rw [attempt_of_ok run]
      refine ⟨fun b m' h => ?_, fun stop m' h => by cases h⟩
      cases h
      exact ⟨(hx.of_ok trivial run).1, trivial⟩
  | error stop mid =>
      obtain ⟨before, steps, stops⟩ := hx.of_error trivial run
      cases stop with
      | fault e =>
          rw [attempt_of_fault run]
          refine ⟨fun b m' h => ?_, fun stop m' h => by cases h⟩
          cases h
          exact ⟨steps.tail (hw.caught stops), trivial⟩
      | blocked =>
          rw [attempt_of_stop run (by simp)]
          refine ⟨fun b m' h => (by cases h), fun stop m' h => ?_⟩
          cases h
          exact ⟨before, steps, stops⟩
      | exhausted =>
          rw [attempt_of_stop run (by simp)]
          refine ⟨fun b m' h => (by cases h), fun stop m' h => ?_⟩
          cases h
          exact ⟨before, steps, stops⟩

end Goes

end Exec

/-! ## Natives -/

/-- What a native does to a machine: it keeps a relation, or it re-enters the engine, which has a
result or stops in a fault. -/
inductive Deed (O : Machine → Machine → Prop) (r : Reentry) (s : Settings) :
    Machine → Machine → Prop
  | own {m m' : Machine} : O m m' → Deed O r s m m'
  | called {m m' : Machine} {cls : LoadedClass} {decl : MethodDecl} {args : List Value}
      {i : Invocation} : r.call cls decl args s m = .ok i m' → Deed O r s m m'
  | callFailed {m m' : Machine} {cls : LoadedClass} {decl : MethodDecl} {args : List Value}
      {e : Fault} : r.call cls decl args s m = .error (.fault e) m' → Deed O r s m m'
  | ran {m m' : Machine} {o : RunOutcome} : r.run s m = .ok o m' → Deed O r s m m'
  | runFailed {m m' : Machine} {e : Fault} : r.run s m = .error (.fault e) m' → Deed O r s m m'

/-- How a native stops: by itself, or because the engine stopped. -/
inductive DeedStop (O : Machine → Machine → Prop) (r : Reentry) (s : Settings) (stop : Stop) :
    Machine → Machine → Prop
  | own {m m' : Machine} : O m m' → DeedStop O r s stop m m'
  | calling {m mid m' : Machine} {cls : LoadedClass} {decl : MethodDecl} {args : List Value} :
      r.call cls decl args s m = .error stop mid → O mid m' → DeedStop O r s stop m m'
  | running {m mid m' : Machine} : r.run s m = .error stop mid → O mid m' →
      DeedStop O r s stop m m'

/-- The natives of a machine abide by a relation: whenever one of them is run, all it does are
deeds. -/
def Natives.Abide (ns : Natives) (O : Machine → Machine → Prop) (r : Reentry) : Prop :=
  ∀ signature native, ns.find? signature = some native →
    Exec.Goes ⟨Deed O r, DeedStop O r⟩ (native r)

/-- Both ways back into the engine go in some ways. -/
structure Reentry.Goes (w : Ways) (r : Reentry) : Prop where
  /-- Calls do. -/
  call : ∀ cls decl args, Exec.Goes w (r.call cls decl args)
  /-- Going on with the frames does. -/
  run : Exec.Goes w r.run

section Natives

variable {w : Ways} {r : Reentry} {s : Settings} {m m' : Machine}

/-- What stops in a fault has taken steps. -/
theorem Ways.Lax.of_fault (hw : w.Lax O) {α : Type} {x : Exec α} (hx : Exec.Goes w x) {e : Fault}
    (h : x s m = .error (.fault e) m') : ReflTransGen (w.step s) m m' := by
  obtain ⟨mid, steps, stops⟩ := hx.of_error trivial h
  exact steps.tail (hw.caught stops)

theorem Deed.steps (hw : w.Lax O) (hr : r.Goes w) (h : Deed O r s m m') :
    ReflTransGen (w.step s) m m' := by
  cases h with
  | own own => exact .single (hw.step own)
  | called h => exact ((hr.call _ _ _).of_ok trivial h).1
  | callFailed h => exact hw.of_fault (hr.call _ _ _) h
  | ran h => exact (hr.run.of_ok trivial h).1
  | runFailed h => exact hw.of_fault hr.run h

theorem DeedStop.stops (hw : w.Lax O) (hr : r.Goes w) {stop : Stop}
    (h : DeedStop O r s stop m m') :
    ∃ mid, ReflTransGen (w.step s) m mid ∧ w.stop s stop mid m' := by
  cases h with
  | own own => exact ⟨m, .refl, hw.stop own⟩
  | calling h own =>
      obtain ⟨mid, steps, stops⟩ := (hr.call _ _ _).of_error trivial h
      exact ⟨mid, steps, hw.tidied stops own⟩
  | running h own =>
      obtain ⟨mid, steps, stops⟩ := hr.run.of_error trivial h
      exact ⟨mid, steps, hw.tidied stops own⟩

/-- A native that abides by such a relation goes where re-entering the engine goes. -/
theorem Natives.Abide.goes {ns : Natives} (hn : ns.Abide O r) (hw : w.Lax O) (hr : r.Goes w)
    {signature : String} {native : NativeFn} (found : ns.find? signature = some native) :
    Exec.Goes w (native r) := by
  have chain {s : Settings} {m m' : Machine} (deeds : ReflTransGen (Deed O r s) m m') :
      ReflTransGen (w.step s) m m' := by
    induction deeds with
    | refl => exact .refl
    | tail _ deed ih => exact ih.trans (deed.steps hw hr)
  have deeds := hn signature native found
  intro s m _
  constructor
  · intro a m' h
    exact ⟨chain (deeds.of_ok trivial h).1, trivial⟩
  · intro stop m' h
    obtain ⟨mid, before, stopped⟩ := deeds.of_error trivial h
    obtain ⟨last, steps, stops⟩ := stopped.stops hw hr
    exact ⟨last, (chain before).trans steps, stops⟩

end Natives

namespace Exec

variable [AllowsCore O] {w : Ways} {host : Host}

/-! ## Instructions -/

section Calls

variable (hw : w.Lax O) (hn : host.natives.Abide O host.toReentry)
  (hr : host.toReentry.Goes w)

include hw hn hr

theorem invokeNative_goes (decl : MethodDecl) (monitor : Option MonitorKey) :
    Goes w (invokeNative host decl monitor) := by
  unfold invokeNative
  refine .bind (.own hw (report_keeps _)) fun _ => ?_
  refine .bind (.own hw (.forM_option enterMonitor_core monitor)) fun _ => ?_
  have freed : Keeps O (monitor.forM fun k => discard (exitMonitor k)) :=
    .forM_option (fun k => (exitMonitor_core k).discard) monitor
  split
  next native found =>
    refine .bind (.attempt hw (hn.goes hw hr found)) fun result => ?_
    exact .own hw (freed.bind fun _ => .ofExcept result)
  next => exact .own hw (freed.bind fun _ => (report_keeps _).bind fun _ => raise_keeps _ _)

theorem invoke_goes (cls : LoadedClass) (decl : MethodDecl) : Goes w (invoke host cls decl) := by
  unfold invoke
  split
  · exact .own hw ((raise_keeps _ _).bind fun _ => .pure _)
  · refine .bind (.own hw (callMonitor_keeps cls decl)) fun monitor => ?_
    split
    · exact .bind (invokeNative_goes hw hn hr decl monitor) fun _ => .pure _
    · exact .own hw (invokeCode_core cls decl monitor)

end Calls

theorem Goes.uncounted {α : Type} {x : Exec α} (hw : w.Lax O) (hx : Goes w x) :
    Goes w (uncounted x) := by
  refine .bind (.own hw world_keeps) fun _ => .bind (.attempt hw hx) fun result => ?_
  refine .own hw (.bind (modifyWorld_keeps fun _ => ?_) fun _ => .ofExcept result)
  exact .of_eq rfl rfl rfl rfl rfl rfl rfl rfl rfl id

/-- Bringing a class into use goes where its initialisation goes. -/
theorem ensureInitialisedWithin_goes (hw : w.Lax O) (hr : host.toReentry.Goes w)
    (move : ∀ id i, Goes w (setInitState id i))
    (start : ∀ id i, Goes w (record (.started id i))) :
    ∀ (n : Nat) (cls : LoadedClass), Goes w (ensureInitialisedWithin host n cls)
  | 0, _ => .own hw (.throw _)
  | n + 1, cls => by
      have running : Goes w (runInitialiser host cls) := by
        unfold runInitialiser
        split
        · exact .pure _
        · refine .bind (.own hw (report_keeps _)) fun _ => ?_
          refine .bind (.own hw library_keeps) fun _ => .bind (.own hw world_keeps) fun _ => ?_
          refine .bind (start _ _) fun _ => ?_
          refine .bind (.uncounted hw (hr.call _ _ _)) fun i => ?_
          cases i <;> exact .pure _
      have beginning : Goes w (beginInitialisation cls.id) := by
        unfold beginInitialisation
        refine .bind (.own hw thread_keeps) fun _ => ?_
        refine .bind (.own hw (initState_keeps _)) fun i => ?_
        split
        · exact .bind (move _ _) fun _ => .pure _
        · split
          · exact .pure _
          · exact .own hw (.throw _)
        · exact .pure _
        · exact .pure _
      refine .bind beginning fun action => ?_
      cases action with
      | ready => exact .pure _
      | failed => exact .own hw ((raise_keeps _ _).bind fun _ => .pure _)
      | run =>
          refine .bind (.attempt hw ?_) fun result => ?_
          · refine .bind (.own hw library_keeps) fun lib => ?_
            split
            · refine .bind (ensureInitialisedWithin_goes hw hr move start n _) fun usable => ?_
              split
              · exact running
              · exact .pure _
            · exact running
          · refine .bind (move _ _) fun _ => ?_
            exact .own hw ((report_keeps _).bind fun _ => .ofExcept result)

/-- The instructions that use a class go in some ways. -/
structure UsesGo (w : Ways) (host : Host) : Prop where
  /-- A static field is read. -/
  getStatic : Goes w (getStaticField host)
  /-- A static field is written. -/
  putStatic : Goes w (putStaticField host)
  /-- A static method is called. -/
  invokeStatic : Goes w (invokeStatic host)
  /-- An object is made. -/
  newObject : Goes w (newObject host)

/-- A machine is always ready for natives that call methods as they like. -/
theorem ready_free (m : Machine) : Discipline.free.Ready m := fun clear => nomatch clear

theorem Goes.ready {α : Type} {x : Exec α} (hx : Goes w x) {Q : α → Machine → Prop}
    (hQ : ∀ a m, Q a m) : Along w Discipline.free.Ready x Q :=
  hx.weaken (fun _ _ => trivial) fun a m _ => hQ a m

theorem Along.goes {α : Type} {x : Exec α} {Q : α → Machine → Prop}
    (hx : Along w Discipline.free.Ready x Q) : Goes w x :=
  hx.weaken (fun m _ => ready_free m) fun _ _ _ => trivial

theorem allowsWithin_of_lax (hw : w.Lax O) : w.AllowsWithin where
  step within := hw.step (AllowsCore.within within)
  stop within := hw.stop (AllowsCore.within within)

/-- A class can be brought into use in ways in which every attempt goes. -/
theorem Initialises.of_goes (hw : w.Lax O)
    (ensure : ∀ n cls, Goes w (ensureInitialisedWithin host n cls))
    (use : ∀ id, Goes w (useClass id)) : Initialises w .free host :=
  ⟨fun cls => (Goes.bind (.own hw library_keeps) fun lib => ensure (lib.budget + 1) cls).ready
      fun _ m _ => ready_free m,
    fun id => (use id).ready fun _ => ready_free⟩

omit [AllowsCore O] in
theorem Stores.own [AllowsMemory O] (hw : w.Lax O) : Stores w :=
  fun f v => Goes.own hw (setStatic_keeps f v)

theorem Instantiates.own [AllowsMemory O] (hw : w.Lax O) : Instantiates w :=
  fun cls => Goes.own hw (orOutOfMemory_keeps (newInstance_freely cls false))

/-- It is enough that bringing a class into use does, noting its use down, and what may come behind
that. -/
theorem UsesGo.of_initialises (hw : w.Lax O) (hi : ∀ cls decl, Goes w (invoke host cls decl))
    (ensure : ∀ n cls, Goes w (ensureInitialisedWithin host n cls))
    (use : ∀ id, Goes w (useClass id)) (store : Stores w) (make : Instantiates w) :
    UsesGo w host :=
  have uses : Initialises w .free host := .of_goes hw ensure use
  { getStatic := (getStaticField_along (allowsWithin_of_lax hw) uses).goes
    putStatic := (putStaticField_along (allowsWithin_of_lax hw) uses store).goes
    invokeStatic := (invokeStatic_along (allowsWithin_of_lax hw) uses
      fun cls decl => (hi cls decl).ready fun _ _ => trivial).goes
    newObject := (newObject_along (allowsWithin_of_lax hw) uses make).goes }

theorem perform_goes (hw : w.Lax O) (hi : ∀ cls decl, Goes w (invoke host cls decl))
    (hu : UsesGo w host) {op : Opcode} (plain : op.namesAddress = false) :
    Goes w (perform host op) := by
  have admits : w.Admits .free host :=
    { toAllowsWithin := allowsWithin_of_lax hw
      invoke := fun cls decl => (hi cls decl).ready fun _ _ => trivial
      getStatic := hu.getStatic.ready fun _ _ => trivial
      putStatic := hu.putStatic.ready fun _ _ => trivial
      invokeStatic := hu.invokeStatic.ready fun _ _ => trivial
      newObject := hu.newObject.ready fun _ _ => trivial
      monitorEnter := (Goes.own hw monitorEnter_core).ready fun _ _ => trivial
      monitorExit := (Goes.own hw monitorExit_core).ready fun _ _ => trivial }
  unfold perform
  split
  · exact .own hw returnValue_core
  · exact .own hw returnVoid_core
  · exact .bind (performPlain_along admits plain).goes fun _ => .pure _

theorem step_goes (hw : w.Lax O) (hi : ∀ cls decl, Goes w (invoke host cls decl))
    (hu : UsesGo w host) : Goes w (step host) :=
  .bind (.own hw fetch_core) fun byte => perform_goes hw hi hu (Opcode.namesAddress_ofByte byte)

/-! ## Turns and loops -/

theorem deliverUncaught_goes (hw : w.Lax O) (hr : host.toReentry.Goes w)
    (deliver : ∀ e, Goes w (record (.delivered e))) (exception : Handle) :
    Goes w (deliverUncaught host exception) := by
  rw [deliverUncaught_eq]
  refine .bind (.own hw takePending_keeps) fun _ => ?_
  refine .bind (.own hw (seekGroup_keeps _)) fun group => .bind ?_ fun _ => .pure _
  cases group with
  | none => exact .pure ()
  | some group =>
      refine .bind (deliver exception) fun _ => .bind (hr.call _ _ _) fun i => ?_
      exact .own hw (dropSecond_keeps i)

/-- The search for a handler goes where the delivery goes that it may end in. -/
theorem unwind_goes (hw : w.Lax O) {exception : Handle} {level : Nat}
    (hd : level = 1 → Goes w (deliverUncaught host exception)) (cls : String) :
    ∀ n : Nat, Goes w (unwind host exception cls level n)
  | 0 => .own hw (.throw _)
  | n + 1 => by
      unfold unwind
      refine .bind (.own hw frame_keeps) fun f => .bind (.own hw library_keeps) fun lib => ?_
      split
      · exact .own hw ((report_keeps _).bind fun _ => (catchException_core _ _).bind fun _ =>
          .pure _)
      · refine .bind (.own hw popFrame_core.discard) fun _ => ?_
        refine .bind (.own hw leaveDepth_core) fun left => ?_
        split
        · split
          next outermost => exact .bind (hd outermost) fun _ => .pure _
          next => exact .pure _
        · exact unwind_goes hw hd cls n

/-- A turn starts its instruction in a machine that is not halted. -/
theorem safepoint_along (hw : w.Lax O) :
    Along w (fun m => m.world.halted = false) safepoint fun _ _ => True := by
  intro s m running
  have kept : O m (safepoint.after s m) :=
    safepoint_after (AllowsCore.within (Machine.withinSameMonitors_tick running))
  constructor
  · intro a m' h
    rw [after_of_ok h] at kept
    exact ⟨.single (hw.step kept), trivial⟩
  · intro stop m' h
    rw [after_of_error h] at kept
    exact ⟨m, .refl, hw.stop kept⟩

theorem turn_goes (hw : w.Lax O) {level : Nat} (hs : Goes w (step host))
    (hd : level = 1 → ∀ e, Goes w (deliverUncaught host e)) : Goes w (turn host level) := by
  have stopping : Along w (fun _ => True) stopsHere
      fun stops m => stops = false → m.world.halted = false :=
    .of_keeps stopsHere_keeps (fun _ _ _ => hw.step) (fun _ _ _ _ => hw.stop)
      fun _ _ _ _ _ stopped running => stopsHere_false (running ▸ stopped)
  unfold turn
  refine Along.bind stopping fun stops => ?_
  cases stops with
  | true => exact .pure _ fun _ _ => trivial
  | false =>
    refine ((safepoint_along hw).weaken (fun _ running => running rfl) fun _ _ h => h).bind
      fun _ => Goes.bind hs fun flow => ?_
    refine Goes.bind (.own hw thread_keeps) fun t => ?_
    split
    next exception _ =>
      refine .bind (.own hw heap_keeps) fun h => .bind (.own hw (.ofExcept _)) fun cls => ?_
      refine .bind (.own hw thread_keeps) fun t => ?_
      exact unwind_goes hw (fun outermost => hd outermost exception) _ _
    next => exact .pure _

theorem loop_goes (hw : w.Lax O) {level : Nat} (ht : Goes w (turn host level)) :
    ∀ n : Nat, Goes w (loop host level n)
  | 0 => .own hw (.throw _)
  | n + 1 => by
      refine .bind ht fun answer => ?_
      cases answer with
      | some outcome => exact .pure _
      | none => exact loop_goes hw ht n

/-- A run goes where its loop goes, if nothing matters about the level of the thread. -/
theorem runLoop_goes (hw : w.Lax O)
    (leveled : ∀ g : Nat → Nat, Goes w (modifyThread fun t => { t with level := g t.level }))
    {n : Nat} (looping : ∀ level, Goes w (loop host level n)) : Goes w (runLoop host n) := by
  unfold runLoop
  refine .bind (leveled (· + 1)) fun _ => .bind (.own hw thread_keeps) fun t => ?_
  refine .bind (.attempt hw (looping _)) fun outcome => ?_
  exact .bind (leveled (· - 1)) fun _ => .own hw (.ofExcept outcome)

/-! ## Calls from outside -/

theorem invokeAndRun_goes (hw : w.Lax O) (hi : ∀ cls decl, Goes w (invoke host cls decl))
    (hr : host.toReentry.Goes w) (hd : ∀ e, Goes w (deliverUncaught host e)) (cls : LoadedClass)
    (decl : MethodDecl) : Goes w (invokeAndRun host cls decl) := by
  refine .bind (hi cls decl) fun entered => ?_
  split
  · exact hr.run
  · refine .bind (.own hw thread_keeps) fun t => ?_
    split
    · exact .pure _
    · split
      · exact hd _
      · exact .pure _

theorem execute_goes (hw : w.Lax O) {cls : LoadedClass} {decl : MethodDecl}
    (h : Goes w (invokeAndRun host cls decl)) (args : List Value) :
    Goes w (execute host cls decl args) := by
  have body : Goes w (do
      let base := (← thread).operandDepth
      prepare decl args
      let outcome ← attempt (invokeAndRun host cls decl)
      discard (onThread Thread.closeDepth)
      conclude decl base (← ofExcept outcome) : Exec Invocation) := by
    refine .bind (.own hw thread_keeps) fun t => ?_
    refine .bind (.own hw (prepare_core decl args)) fun _ => ?_
    refine .bind (.attempt hw h) fun outcome => .own hw (closeDepth_core.discard.bind fun _ => ?_)
    exact Keeps.bind (.ofExcept _) fun o => conclude_keeps decl _ o
  unfold execute
  split
  · exact .bind (.own hw (.fail _)) fun _ => body
  · exact body

end Exec

/-! ## The engine -/

namespace Engine

open Exec

/-- The whole engine goes in some ways, however deep it is re-entered, if bringing a class into use
and handing over an exception do, and a run does when its loop does. -/
theorem goes [AllowsCore O] {w : Ways} {natives : Natives} (hw : w.Lax O)
    (hn : ∀ n, natives.Abide O (reentry natives n))
    (uses : ∀ n, (reentry natives n).Goes w → UsesGo w (host natives n))
    (deliver : ∀ e, Goes w (record (.delivered e)))
    (level : ∀ host n, (∀ level, Goes w (loop host level n)) → Goes w (runLoop host n)) :
    ∀ n, (reentry natives n).Goes w
  | 0 => by
      have exhausted {α : Type} : Goes w (throw .exhausted : Exec α) := .own hw (.throw _)
      constructor
      · intro cls decl args s m
        simpa only [reentry, call] using exhausted s m
      · simpa only [reentry, run] using exhausted
  | n + 1 => by
      have ih := goes hw hn uses deliver level n
      have hi : ∀ cls decl, Goes w (invoke (host natives n) cls decl) := invoke_goes hw (hn n) ih
      have hd : ∀ e, Goes w (deliverUncaught (host natives n) e) :=
        deliverUncaught_goes hw ih deliver
      have turning (k : Nat) : Goes w (turn (host natives n) k) :=
        turn_goes hw (step_goes hw hi (uses n ih)) fun _ => hd
      constructor
      · intro cls decl args
        rw [reentry_call_succ]
        exact execute_goes hw (invokeAndRun_goes hw hi ih hd cls decl) args
      · rw [reentry_run_succ]
        exact level _ n fun k => loop_goes hw (turning k) n

end Engine

/-! ## Two kinds of ways -/

/-- The ways of computations that keep a relation, however they end. -/
def Ways.keeping (R : Machine → Machine → Prop) : Ways := ⟨fun _ => R, fun _ _ => R⟩

/-- The ways of computations that keep a relation when they have a result or stop in a fault. -/
def Ways.lasting (R : Machine → Machine → Prop) : Ways :=
  ⟨fun _ => R, fun _ stop m m' => (∃ e, stop = .fault e) → R m m'⟩

section Kinds

variable {R : Machine → Machine → Prop} [IsPreorder Machine R]

theorem Ways.keeping_lax (own : ∀ {m m' : Machine}, O m m' → R m m') : (keeping R).Lax O where
  step := own
  stop := own
  tidied stops tidy := show R _ _ from IsTrans.trans _ _ _ stops (own tidy)
  caught stops := stops

theorem Ways.lasting_lax (own : ∀ {m m' : Machine}, O m m' → R m m') : (lasting R).Lax O where
  step := own
  stop tidy _ := own tidy
  tidied stops tidy fault := show R _ _ from IsTrans.trans _ _ _ (stops fault) (own tidy)
  caught {_ e _ _} stops := stops ⟨e, rfl⟩

/-- Steps that keep a preorder make one. -/
theorem closed_steps {m m' : Machine} (steps : ReflTransGen R m m') :
    R m m' := by
  induction steps with
  | refl => exact Std.Refl.refl m
  | tail _ last ih => exact IsTrans.trans _ _ _ ih last

namespace Exec

variable {α : Type} {x : Exec α}

omit [IsPreorder Machine R] in
theorem Keeps.goes (hx : Keeps R x) : Goes (.keeping R) x :=
  .of_keeps hx (fun _ _ _ h => h) (fun _ _ _ _ h => h) fun _ _ _ _ _ _ => trivial

omit [IsPreorder Machine R] in
theorem Keeps.lasts (hx : Keeps R x) : Goes (.lasting R) x :=
  .of_keeps hx (fun _ _ _ h => h) (fun _ _ _ _ h _ => h) fun _ _ _ _ _ _ => trivial

theorem Goes.keeps (hx : Goes (.keeping R) x) : Keeps R x := by
  intro s m
  cases run : x s m with
  | ok a m' =>
      rw [after_of_ok run]
      exact closed_steps (hx.of_ok trivial run).1
  | error stop m' =>
      obtain ⟨mid, steps, stops⟩ := hx.of_error trivial run
      rw [after_of_error run]
      exact IsTrans.trans _ _ _ (closed_steps steps) stops

omit [IsPreorder Machine R] in
/-- It is enough to look at results and faults. -/
theorem Goes.of_lasting (ok : ∀ {s m a m'}, x s m = .ok a m' → R m m')
    (fault : ∀ {s m e m'}, x s m = .error (.fault e) m' → R m m') : Goes (.lasting R) x := by
  intro s m _
  constructor
  · intro a m' h
    exact ⟨.single (ok h), trivial⟩
  · intro stop m' h
    refine ⟨m, .refl, ?_⟩
    rintro ⟨e, rfl⟩
    exact fault h

theorem Goes.lasts_ok (hx : Goes (.lasting R) x) {s : Settings}
    {m m' : Machine} {a : α} (h : x s m = .ok a m') : R m m' :=
  closed_steps (hx.of_ok trivial h).1

theorem Goes.lasts_fault (hx : Goes (.lasting R) x) {s : Settings}
    {m m' : Machine} {e : Fault} (h : x s m = .error (.fault e) m') : R m m' := by
  obtain ⟨mid, steps, stops⟩ := hx.of_error trivial h
  exact IsTrans.trans _ _ _ (closed_steps steps) (stops ⟨e, rfl⟩)

end Exec

end Kinds

/-! ## Relations that look at the memory -/

/-- A relation between machines that looks at nothing of the world but the memory. -/
class AllowsStirring (R : Machine → Machine → Prop) : Prop extends AllowsCore R where
  /-- The memory may be stirred, and anything else may change about the world. -/
  stirring : ∀ {m : Machine} {w : World}, m.world.Stirs w → R m { m with world := w }

namespace Exec

variable {R : Machine → Machine → Prop} [AllowsStirring R] {host : Host}

theorem record_stirring (o : Occurrence) : Keeps R (record o) :=
  fun _ _ => AllowsStirring.stirring (.beside rfl rfl rfl rfl rfl rfl rfl)

theorem setInitState_stirring (id : Nat) (i : InitState) : Keeps R (setInitState id i) := by
  refine (initState_keeps id).bind fun _ => (record_stirring _).bind fun _ s m => ?_
  refine AllowsStirring.stirring (.single (.beside rfl rfl (fun k => ?_) rfl rfl rfl) rfl)
  show ((m.world.classStates.modify id _)[k]?).map _ = _
  rw [Array.getElem?_modify]
  split
  · cases m.world.classStates[k]? <;> rfl
  · rfl

theorem useClass_stirring (id : Nat) : Keeps R (useClass id) :=
  thread_keeps.bind fun _ => (initState_keeps id).bind fun _ => record_stirring _

/-- Bringing a class into use keeps such a relation. -/
theorem initialises_stirring (hr : host.toReentry.Goes (.keeping R)) :
    Initialises (.keeping R) .free host :=
  have lax : (Ways.keeping R).Lax R := Ways.keeping_lax id
  .of_goes lax (ensureInitialisedWithin_goes lax hr (fun id i => (setInitState_stirring id i).goes)
    fun _ _ => (record_stirring _).goes) fun id => (useClass_stirring id).goes

end Exec

end Lax

end JavaMachine
