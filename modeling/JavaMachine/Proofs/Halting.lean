import JavaMachine.Proofs.Delivery
import JavaMachine.Proofs.Isolation

/-!
# A halted machine starts no instruction

A machine may be halted at any time: by its host before a call, by a native, by a controller while
the thread is paused, or by the collector between two instructions.  Then several runs have an
instruction in progress, and these instructions go on.  They may call natives, bring classes into
use and deliver exceptions before their runs look at the halt flag, but every run looks at it in
front of each instruction.

`Machine.Frozen` says what follows.  The halt flag stays set, no instruction was started while it
was set, and a machine that was halted from the beginning has started none at all.  It is kept by
the whole engine, however deep it is re-entered and however it ends, as long as natives keep it by
themselves.  A run of a machine that is halted ends at once and leaves everything as it is.
-/

namespace JavaMachine

open Exec

instance : AllowsCore Machine.Frozen where
  refl := Machine.Frozen.refl
  trans _ _ _ := Machine.Frozen.trans
  core _ frozen _ _ := frozen

instance : AllowsMemory Machine.Frozen where
  memory sameClasses := ⟨sameClasses.halted, fun _ => rfl, rfl⟩

namespace Exec

variable {host : Host} {level : Nat} {s : Settings} {m m' : Machine} {cls : LoadedClass}
  {decl : MethodDecl} {args : List Value}

/-! ## What the engine does -/

theorem frozen_lax : (Ways.keeping Machine.Frozen).Lax Machine.Frozen := Ways.keeping_lax id

theorem modifyWorld_frozen {g : World → World} (hg : ∀ w, (g w).halted = w.halted) :
    Keeps Machine.Frozen (modifyWorld g) :=
  fun _ m => ⟨fun halted => (hg m.world).trans halted, fun _ => rfl, rfl⟩

theorem record_frozen (o : Occurrence) : Keeps Machine.Frozen (record o) :=
  modifyWorld_frozen fun _ => rfl

theorem setInitState_frozen (id : Nat) (i : InitState) :
    Keeps Machine.Frozen (setInitState id i) :=
  (initState_keeps id).bind fun _ => (record_frozen _).bind fun _ => modifyWorld_frozen fun _ => rfl

theorem useClass_frozen (id : Nat) : Keeps Machine.Frozen (useClass id) :=
  thread_keeps.bind fun _ => (initState_keeps id).bind fun _ => record_frozen _

theorem uses_frozen (hn : host.natives.Abide Machine.Frozen host.toReentry)
    (hr : host.toReentry.Goes (.keeping Machine.Frozen)) :
    UsesGo (.keeping Machine.Frozen) host :=
  .of_initialises frozen_lax (invoke_goes frozen_lax hn hr)
    (ensureInitialisedWithin_goes frozen_lax hr (fun id i => (setInitState_frozen id i).goes)
      fun _ _ => (record_frozen _).goes)
    (fun id => (useClass_frozen id).goes) (.own frozen_lax) (.own frozen_lax)

/-- The number of runs in progress says nothing about the halt flag. -/
theorem runLoop_frozen (n : Nat)
    (looping : ∀ level, Goes (.keeping Machine.Frozen) (loop host level n)) :
    Goes (.keeping Machine.Frozen) (runLoop host n) :=
  runLoop_goes frozen_lax (fun _ => Keeps.goes fun _ _ => ⟨id, fun _ => rfl, rfl⟩) looping

/-! ## Runs of a halted machine -/

/-- A run of a halted machine ends in front of its first instruction. -/
theorem runLoop_halted {n : Nat} (halted : m.world.halted = true) :
    runLoop host (n + 1) s m = .ok .halted m := by
  have looped : loop host (m.thread.level + 1) (n + 1) s (m.atLevel (m.thread.level + 1)) =
      .ok .halted (m.atLevel (m.thread.level + 1)) := by
    rw [loop, bind_of_ok (turn_halted (m := m.atLevel (m.thread.level + 1)) halted)]
    rfl
  rw [runLoop_run, bind_of_ok (attempt_of_ok looped)]
  rfl

/-! ## Frames that a call enters -/

/-- A call has put a frame on top that is in front of its first instruction, and counted it. -/
structure Enrols (decl : MethodDecl) (m m' : Machine) : Prop where
  /-- The frame is on top of those that were there. -/
  top : ∃ f, m'.frames = f :: m.frames ∧ f.method = decl ∧ f.pc = 0
  /-- A counter is open. -/
  counted : ∃ d outer, m'.thread.depths = d :: outer

theorem enterFrame_enrols {monitor : Option MonitorKey}
    (h : enterFrame cls decl monitor s m = .ok () m') : Enrols decl m m' := by
  obtain ⟨f, below, sameFrames, -, ⟨⟨mid, pushes, counts⟩, n, outer, -, depths⟩, method, pc⟩ :=
    enterFrame_ok h
  have frames : m'.frames = mid.frames := by rw [counts]
  exact ⟨⟨f, by rw [frames, pushes.frames, sameFrames.frames_eq], method, pc⟩, n + 1, outer, depths⟩

/-- A method that gets a frame is neither abstract nor native, so nothing was run before. -/
theorem invoke_enrols (h : invoke host cls decl s m = .ok true m') :
    Enrols decl m m' ∧ m.Frozen m' := by
  cases invoke_cases h with
  | @entered mid _ monitor locked _ framed =>
      have sameThread : m.SameThread mid := (callMonitor_keeps cls decl).of_ok locked
      have first : m.Frozen mid := (callMonitor_keeps cls decl).of_ok locked
      have second : mid.Frozen m' := (enterFrame_core cls decl monitor).of_ok framed
      obtain ⟨⟨f, top, fresh⟩, counted⟩ := enterFrame_enrols framed
      refine ⟨⟨⟨f, ?_, fresh⟩, counted⟩, first.trans second⟩
      rw [top, Machine.frames, sameThread.thread]

end Exec

/-! ## The engine -/

namespace Sample

/-- A native that halts the machine. -/
def halting : Natives := [(native.signature, fun _ => halt)]

theorem halting_abides (r : Reentry) : halting.Abide Machine.Frozen r := by
  intro signature native found
  have same : native = fun _ => halt := by
    rw [Natives.find?, halting, List.lookup_cons, List.lookup_nil] at found
    split at found
    · exact (Option.some.inj found).symm
    · cases found
  rw [same]
  exact .of_keeps halt_keeps (fun _ _ _ => .own) (fun _ _ _ _ => .own) fun _ _ _ _ _ _ => trivial

/-- A thread without frames, in a machine with the class of the native. -/
def idle : Machine where
  world := { library := ⟨[home]⟩, classStates := #[⟨.initialised, #[]⟩] }
  thread := { id := 0 }

end Sample

namespace Engine

variable {natives : Natives}

/-- No instruction is started while the machine is halted, however deep the engine is re-entered. -/
theorem frozen (hn : ∀ n, natives.Abide Machine.Frozen (reentry natives n)) (n : Nat) :
    (reentry natives n).Goes (.keeping Machine.Frozen) :=
  goes frozen_lax hn (fun k ih => uses_frozen (hn k) ih)
    (fun _ => (record_frozen _).goes) (fun _ n => runLoop_frozen n) n

theorem run_halted {n : Nat} {s : Settings} {m : Machine} (halted : m.world.halted = true) :
    run natives (n + 2) s m = .ok .halted m := by
  rw [run]
  exact runLoop_halted halted

/-- A call of a halted machine that gets a frame leaves it in front of its first instruction. -/
theorem call_halted {n : Nat} {cls : LoadedClass} {decl : MethodDecl} {args : List Value}
    {s : Settings} {m mid : Machine} (halted : m.world.halted = true)
    (count : args.length = decl.argCount)
    (entered : invoke (host natives (n + 2)) cls decl s ((prepare decl args).after s m) =
      .ok true mid) :
    ∃ m' f, call natives (n + 3) cls decl args s m = .ok .halted m' ∧
      m'.frames = f :: m.frames ∧ f.method = decl ∧ f.pc = 0 := by
  obtain ⟨events, prepared⟩ := prepare_run (s := s) (m := m) decl args
  have entered' := entered
  rw [after_of_ok prepared] at entered'
  obtain ⟨⟨⟨f, top, method, pc⟩, d, outer, depths⟩, frozen⟩ := invoke_enrols entered'
  have ran : invokeAndRun (host natives (n + 2)) cls decl s ((prepare decl args).after s m) =
      .ok .halted mid := by
    rw [invokeAndRun, bind_of_ok entered]
    exact run_halted (frozen.halted halted)
  exact ⟨mid.withDepths outer, f, execute_of_ran count ran depths, top, method, pc⟩

/-- Halting freezes the machine.

However a call or a run ends, it does not reset the halt flag, and no instruction was started while
the flag was set, in this run or in one inside it, in an initialiser or while an exception was
delivered; if the machine was halted before, then as many instructions were started as before.  A
run of a halted machine is halted and leaves the machine as it is, and a call of a halted machine
that gets a frame leaves that frame on top, in front of its first instruction. -/
theorem halt_freezes (hn : ∀ n, natives.Abide Machine.Frozen (reentry natives n)) (n : Nat)
    (s : Settings) (m : Machine) :
    (∀ cls decl args, m.Frozen ((call natives n cls decl args).after s m)) ∧
    m.Frozen ((run natives n).after s m) ∧
    (m.world.halted = true → run natives (n + 2) s m = .ok .halted m) ∧
    (m.world.halted = true → ∀ cls decl args mid, args.length = decl.argCount →
      invoke (host natives (n + 2)) cls decl s ((prepare decl args).after s m) = .ok true mid →
      ∃ m' f, call natives (n + 3) cls decl args s m = .ok .halted m' ∧
        m'.frames = f :: m.frames ∧ f.method = decl ∧ f.pc = 0) := by
  refine ⟨fun cls decl args => ?_, ?_, fun halted => ?_, fun halted cls decl args mid => ?_⟩
  · exact ((frozen hn n).call cls decl args).keeps s m
  · exact (frozen hn n).run.keeps s m
  · exact run_halted halted
  · exact call_halted halted

/-- A native halts the machine inside the first instruction of a method.  The call is halted after
one instruction, none was started later, and to go on with the frame changes nothing. -/
theorem halt_freezes_native : ∃ m',
    call Sample.halting 4 Sample.home (Sample.method [0xb8, 0x00, 0x01, 0x00, 0xb1] []) [] {}
        Sample.idle = .ok .halted m' ∧
      m'.thread.executed = 1 ∧ m'.thread.late = Sample.idle.thread.late ∧
      run Sample.halting 2 {} m' = .ok .halted m' := by
  obtain ⟨m', called, executed, halted⟩ : ∃ m',
      call Sample.halting 4 Sample.home (Sample.method [0xb8, 0x00, 0x01, 0x00, 0xb1] []) [] {}
          Sample.idle = .ok .halted m' ∧ m'.thread.executed = 1 ∧ m'.world.halted = true :=
    ⟨_, by rfl, by rfl, by rfl⟩
  have before := (halt_freezes (fun _ => Sample.halting_abides _) 4 {} Sample.idle).1 Sample.home
    (Sample.method [0xb8, 0x00, 0x01, 0x00, 0xb1] []) []
  rw [after_of_ok called] at before
  have after := (halt_freezes (fun _ => Sample.halting_abides _) 0 {} m').2.2.1 halted
  exact ⟨m', called, executed, before.late, after⟩

end Engine

end JavaMachine
