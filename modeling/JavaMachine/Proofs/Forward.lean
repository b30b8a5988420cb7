import JavaMachine.Proofs.Handshake
import JavaMachine.Proofs.Reading
import JavaMachine.Proofs.Steps

/-!
# Runs carried forward

`Turns` takes a run apart when it is over.  Here a run is carried forward from the machine that it
begins with, so that it is found to come to an end.

*Turns.*  A machine that nothing hinders (`Machine.Unhindered`) has nothing else to do between two
instructions than to count and to ask its collector.  A turn is then the next instruction, followed
by what becomes of an exception that it leaves pending (`turn_unhindered`).

*Stretches.*  A number of turns leads from one machine to another if a loop goes on from there with
whatever is left of its budget (`Reaches`).  Stretches are joined, and the turn that ends the run
follows the last one.

*Calls and returns.*  Entering a frame, finding no room for one, returning a value, delivering an
exception that nobody waits for and concluding a call have one equation each.
-/

namespace JavaMachine

/-- Nothing is asked of the machine between two instructions: it is not halted, it is not going to
be halted by its collector, and nobody asks the thread to pause. -/
structure Machine.Unhindered (m : Machine) : Prop where
  /-- The machine is not halted. -/
  running : m.world.halted = false
  /-- No question to the collector halts it. -/
  unlimited : m.world.haltAt = none
  /-- The thread is not asked to pause. -/
  unpaused : m.token.phase.confirm? = none

/-- The machine after an instruction was counted and the collector was asked. -/
def Machine.ticked (m : Machine) (events : Array Event) (collector : Collector) (asked : Nat) :
    Machine :=
  ⟨{ m.world with events, collector, asked }, m.thread.tick false⟩

/-- The machine in which a frame was entered, the operands below it being the given ones. -/
def Machine.entered (m : Machine) (f : Frame) (below : Array Operand) (depths : List Nat)
    (events : Array Event) : Machine :=
  ⟨{ m.world with events }, { ({ m.thread with operands := below } : Thread).pushFrame f with
    depths }⟩

/-- The frame is the current one, and the operands are its top ones, the last one on top. -/
structure Machine.Bears (m : Machine) (f : Frame) (rest : List Frame) (below : Array Operand)
    (os : List Operand) : Prop where
  /-- The frame is the current one. -/
  current : m.thread.frames = f :: rest
  /-- The operands are the top ones. -/
  top : m.thread.operands = os.foldl .push below
  /-- The operands below them reach up to those of the frame. -/
  own : f.stackBase ≤ below.size

/-- The outermost run of a thread is over. -/
structure Machine.Vacated (m : Machine) : Prop where
  /-- All frames are left. -/
  frames : m.thread.frames = []
  /-- They are counted. -/
  depths : m.thread.depths = [0]
  /-- No exception is pending. -/
  clear : m.thread.pending = none
  /-- The run is still in progress. -/
  level : m.thread.level = 1

namespace Exec

variable {host : Host} {level : Nat} {s : Settings} {m m' : Machine}

/-! ## Turns -/

theorem stopsHere_unhindered (free : m.Unhindered) : stopsHere s m = .ok false m := by
  have unpaused : checkpoint s m = .ok false m := by
    rw [checkpoint, bind_of_ok thread_run, bind_of_ok pauseToken_run, free.unpaused]
    rfl
  rw [stopsHere, bind_of_ok isHalted_run, free.running]
  exact bind_of_ok unpaused

theorem mustCollect_unhindered (free : m.Unhindered) : mustCollect s m =
    .ok m.world.collector.mustCollect
      { m with world := { m.world with asked := m.world.asked + 1 } } := by
  have open_ : m.world.haltAt ≠ some (m.world.asked + 1) := by simp [free.unlimited]
  rw [mustCollect, bind_of_ok (modifyWorld_run _), bind_of_ok world_run]
  dsimp only
  rw [if_neg open_]
  rfl

theorem safepoint_unhindered (free : m.Unhindered) : ∃ events collector asked,
    safepoint s m = .ok () (m.ticked events collector asked) := by
  have collected (periodic due : Bool) (asked : Nat) : ∃ events collector,
      (if due then do
        report (.collecting (m.thread.executed + 1) periodic)
        modifyWorld fun w => { w with collector := w.collector.collect }
      else pure () : Exec Unit) s (m.ticked m.world.events m.world.collector asked) =
        .ok () (m.ticked events collector asked) := by
    cases due with
    | false => exact ⟨_, _, rfl⟩
    | true =>
        obtain ⟨events, told⟩ := report_run (s := s)
          (m := m.ticked m.world.events m.world.collector asked)
          (.collecting (m.thread.executed + 1) periodic)
        exact ⟨events, m.world.collector.collect, bind_of_ok told⟩
  have ticks : (modifyThread (·.tick m.world.halted) : Exec Unit) s m =
      .ok () (m.ticked m.world.events m.world.collector m.world.asked) := by
    rw [free.running]
    rfl
  have unhindered : (m.ticked m.world.events m.world.collector m.world.asked).Unhindered :=
    ⟨free.running, free.unlimited, free.unpaused⟩
  rw [safepoint, bind_of_ok isHalted_run, bind_of_ok ticks, bind_of_ok thread_run,
    bind_of_ok (x := read) (s := s) rfl]
  let periodic := decide (0 < s.config.collectInterval) &&
    (m.thread.executed + 1) % s.config.collectInterval == 0
  dsimp only
  split
  next =>
    obtain ⟨events, collector, run⟩ := collected periodic true m.world.asked
    exact ⟨events, collector, m.world.asked, run⟩
  next =>
    obtain ⟨events, collector, run⟩ := collected periodic m.world.collector.mustCollect
      (m.world.asked + 1)
    exact ⟨events, collector, m.world.asked + 1,
      (bind_of_ok (mustCollect_unhindered unhindered)).trans run⟩

/-- What becomes of a run behind an instruction. -/
def settle (host : Host) (level : Nat) (flow : Flow) : Exec (Option RunOutcome) := do
  match (← thread).pending with
  | some exception => handleException host exception level
  | none => return if flow = .leave then some .completed else none

/-- A turn that nothing hinders is its next instruction and what becomes of the run behind it. -/
theorem turn_unhindered (host : Host) (level : Nat) (s : Settings) (free : m.Unhindered) :
    ∃ events collector asked, turn host level s m =
      (step host >>= settle host level) s (m.ticked events collector asked) := by
  obtain ⟨events, collector, asked, counted⟩ := safepoint_unhindered (s := s) free
  refine ⟨events, collector, asked, ?_⟩
  rw [turn, bind_of_ok (stopsHere_unhindered free)]
  exact bind_of_ok counted

theorem settle_next (clear : m.thread.pending = none) :
    settle host level .next s m = .ok none m := by
  rw [settle, bind_of_ok thread_run, clear]
  rfl

theorem settle_leave (clear : m.thread.pending = none) :
    settle host level .leave s m = .ok (some .completed) m := by
  rw [settle, bind_of_ok thread_run, clear]
  rfl

theorem settle_pending {exception : Handle} (pending : m.thread.pending = some exception)
    (flow : Flow) : settle host level flow s m = handleException host exception level s m := by
  rw [settle, bind_of_ok thread_run, pending]

/-! ## Stretches -/

/-- So many turns lead from a machine to another: a loop goes on from there. -/
def Reaches (host : Host) (level : Nat) (s : Settings) (turns : Nat) (m m' : Machine) : Prop :=
  ∀ n, loop host level (turns + n) s m = loop host level n s m'

namespace Reaches

variable {a b : Nat} {m'' : Machine}

theorem round (turned : Round host level s m m') : Reaches host level s 1 m m' := by
  intro n
  rw [Nat.add_comm, loop, bind_of_ok turned]

theorem trans (first : Reaches host level s a m m') (second : Reaches host level s b m' m'') :
    Reaches host level s (a + b) m m'' := by
  intro n
  rw [Nat.add_assoc, first, second]

/-- The turn with an outcome is the last one. -/
theorem ends {o : RunOutcome} (reaches : Reaches host level s a m m')
    (last : turn host level s m' = .ok (some o) m'') {n : Nat} (enough : a < n) :
    loop host level n s m = .ok o m'' := by
  obtain ⟨k, rfl⟩ := Nat.exists_eq_add_of_lt enough
  rw [Nat.add_assoc, reaches, loop, bind_of_ok last]
  rfl

end Reaches

theorem runLoop_of_ok {n : Nat} {o : RunOutcome}
    (looped : loop host (m.thread.level + 1) n s (m.atLevel (m.thread.level + 1)) = .ok o m') :
    runLoop host n s m = .ok o (m'.atLevel (m'.thread.level - 1)) := by
  rw [runLoop_run, bind_of_ok (attempt_of_ok looped)]
  rfl

/-! ## Instructions -/

/-- An instruction that is not a return is fetched and performed. -/
theorem step_of_run {f : Frame} {rest : List Frame} {below : Array Operand} {os : List Operand}
    {byte : UInt8} {x : Exec Unit}
    (plain : perform host (Opcode.ofByte byte) = do x; return .next)
    (bears : m.Bears f rest below os) (shown : f.Shows f.pc [byte])
    (run : x s (m.amid f rest (os.foldl .push below) (m.traced s f byte) (f.pc + 1)) = .ok () m') :
    step host s m = .ok .next m' := by
  rw [← bears.top] at run
  rw [step, bind_of_ok (fetch_traced bears.current shown), plain]
  exact bind_of_ok run

/-! ## Calls and returns -/

section Calls

variable {decl : MethodDecl} {below : Array Operand} {os : List Operand}
  {locals : Array Value} {d : Nat} {outer : List Nat}

/-- A frame is entered with its arguments, which are the operands above the others. -/
theorem enterFrame_run (cls : LoadedClass) (top : m.thread.operands = below ++ os.toArray)
    (count : os.length = decl.argCount) (own : m.thread.stackBase ≤ below.size)
    (placed : Frame.localsOf decl (os.map Operand.value) = .ok locals)
    (counter : m.thread.depths = d :: outer) : ∃ events, enterFrame cls decl none s m =
      .ok () (m.entered { cls, method := decl, locals, stackBase := below.size } below
        ((d + 1) :: outer) events) := by
  have size : m.thread.operands.size = below.size + decl.argCount := by
    simp [top, count]
  have enough : ¬ m.thread.operandDepth < decl.argCount := by
    rw [Thread.operandDepth, size]
    omega
  have base : m.thread.operands.size - decl.argCount = below.size := by omega
  have args : (m.thread.operands.extract below.size m.thread.operands.size).toList = os := by
    rw [top]
    simp
  have dropped : m.thread.truncate below.size = { m.thread with operands := below } := by
    rw [Thread.truncate, top]
    simp
  let mid : Machine := { m with thread := { m.thread with operands := below } }
  obtain ⟨events, told⟩ := report_run (s := s) (m := mid)
    (.pushFrame decl.signature (m.thread.frames.length + 1))
  have pushed : pushFrame cls decl s m = .ok () (m.entered
      { cls, method := decl, locals, stackBase := below.size } below m.thread.depths events) := by
    rw [pushFrame, bind_of_ok thread_run, if_neg enough]
    refine (bind_of_ok (modifyThread_run _)).trans ?_
    rw [base, dropped, args, placed]
    exact bind_of_ok told
  refine ⟨events, ?_⟩
  rw [enterFrame, bind_of_ok pushed]
  have deepened : (m.entered { cls, method := decl, locals, stackBase := below.size } below
      m.thread.depths events).thread.deepen = .ok (d + 1, (m.entered
        { cls, method := decl, locals, stackBase := below.size } below
        ((d + 1) :: outer) events).thread) := by
    rw [Thread.deepen, Machine.entered]
    dsimp only
    rw [counter]
    rfl
  exact discard_of_ok (onThread_of_ok deepened)

/-- The method has code, and calling it enters no monitor. -/
structure Interpreted (decl : MethodDecl) : Prop where
  /-- It is not abstract. -/
  concrete : decl.flags.isAbstract = false
  /-- It enters no monitor. -/
  unsynchronized : decl.flags.isSynchronized = false
  /-- It is not native. -/
  interpreted : decl.flags.isNative = false

theorem invoke_interpreted (host : Host) (cls : LoadedClass) (plain : Interpreted decl) :
    invoke host cls decl s m = invokeCode cls decl none s m := by
  have unlocked : callMonitor cls decl s m = .ok none m := by
    rw [callMonitor, plain.unsynchronized]
    rfl
  rw [invoke, plain.concrete]
  refine (bind_of_ok unlocked).trans ?_
  rw [plain.interpreted]
  rfl

/-- A call enters a frame when there is room for one more. -/
theorem invoke_enters (host : Host) (cls : LoadedClass) (plain : Interpreted decl)
    (room : m.thread.frames.length < s.config.maxFrames)
    (top : m.thread.operands = below ++ os.toArray)
    (count : os.length = decl.argCount) (own : m.thread.stackBase ≤ below.size)
    (placed : Frame.localsOf decl (os.map Operand.value) = .ok locals)
    (counter : m.thread.depths = d :: outer) : ∃ events, invoke host cls decl s m =
      .ok true (m.entered { cls, method := decl, locals, stackBase := below.size } below
        ((d + 1) :: outer) events) := by
  obtain ⟨events, entered⟩ := enterFrame_run (s := s) cls top count own placed counter
  refine ⟨events, (invoke_interpreted host cls plain).trans ?_⟩
  rw [invokeCode, bind_of_ok thread_run, bind_of_ok (x := read) (s := s) rfl,
    if_neg (Nat.not_le_of_lt room)]
  exact bind_of_ok entered

/-- A call for which there is no room raises an exception. -/
theorem invoke_overflows (host : Host) (cls : LoadedClass) (plain : Interpreted decl)
    (full : s.config.maxFrames ≤ m.thread.frames.length) : ∃ events, invoke host cls decl s m =
      (do raise Throwable.stackOverflowError none; return false : Exec Bool) s
        { m with world := { m.world with events } } := by
  obtain ⟨events, told⟩ := report_run (s := s) (m := m)
    (.stackOverflow decl.signature m.thread.frames.length)
  refine ⟨events, (invoke_interpreted host cls plain).trans ?_⟩
  rw [invokeCode, bind_of_ok thread_run, bind_of_ok (x := read) (s := s) rfl, if_pos full]
  exact bind_of_ok told

/-- A result is handed to the frame below. -/
theorem returnValue_run {f : Frame} (rest : List Frame) (events : Array Event) (pc : Nat)
    {o : Operand} {v : Value} (own : f.stackBase ≤ below.size)
    (result : o.value.coerceTo f.method.type.result = .ok v)
    (counter : m.thread.depths = (d + 1) :: outer) : ∃ events',
      returnValue s (m.amid f rest (below.push o) events pc) =
        .ok (if d = 0 then .leave else .next)
          (((m.amid f rest below events pc).without [{ f with pc, instructionPc := f.pc }]
            (d :: outer) events').handed (some v) m.thread.bare) := by
  obtain ⟨events', left⟩ := leave_run (s := s) (m := m.amid f rest below events pc) (some v) rfl
    counter
  refine ⟨events', Eq.trans ?_ left⟩
  rw [returnValue, bind_of_ok (frame_of_cons rfl), bind_of_ok (pop_run o own)]
  dsimp only
  rw [result]
  rfl

/-- An exception that leaves the outermost frame of a thread without a thread object is only
reported. -/
theorem deliverUncaught_alone (host : Host) {exception : Handle} {c : LoadedClass}
    (alone : m.thread.threadObject = none)
    (known : m.world.heap.classOf exception = .ok c) : ∃ events,
      deliverUncaught host exception s m = .ok (.uncaught exception)
        ⟨{ m.world with events }, { m.thread with pending := none }⟩ := by
  let taken : Machine := { m with thread := { m.thread with pending := none } }
  obtain ⟨events, told⟩ := report_run (s := s) (m := taken) (.uncaughtWithoutGroup c.name)
  have alone' : taken.thread.threadObject = none := alone
  have nobody : threadGroup s taken = .ok none taken := by
    rw [threadGroup, bind_of_ok thread_run, alone']
    rfl
  have first : takePending s m = .ok m.thread.pending taken := rfl
  refine ⟨events, ?_⟩
  rw [deliverUncaught, bind_of_ok first, bind_of_ok heap_run]
  show (ofExcept (m.world.heap.classOf exception) >>= _) s taken = _
  rw [known]
  refine (bind_of_ok (a := c) rfl).trans ((bind_of_ok nobody).trans ?_)
  exact bind_of_ok told

/-- An exception leaves the outermost run of a thread without a thread object when no frame has a
handler. -/
theorem handleException_alone (host : Host) {exception : Handle} {c : LoadedClass}
    (alone : m.thread.threadObject = none) (known : m.world.heap.classOf exception = .ok c)
    (nonempty : m.thread.frames ≠ []) (counter : m.thread.depths = [m.thread.frames.length])
    (outermost : m.thread.level = 1) (bare : ∀ f ∈ m.thread.frames, f.method.handlers = []) :
    ∃ m', handleException host exception 1 s m = .ok (some (.uncaught exception)) m' ∧
      m'.Vacated ∧ m'.world.heap = m.world.heap := by
  have missing (f : Frame) (left : f ∈ m.thread.frames) :
      m.world.library.findHandler f.method f.instructionPc c.name = none := by
    rw [Library.findHandler, bare f left]
    rfl
  have current : m.thread.frames = m.thread.frames ++ [] := (List.append_nil _).symm
  have enough : m.thread.frames.length < (m.thread.frames.length + 1) + 1 := by omega
  obtain ⟨events, unwound⟩ := unwind_to_end (s := s) host exception c.name 1 m.thread.frames
    nonempty current counter enough missing
  rw [if_pos rfl, map_eq_pure_bind] at unwound
  obtain ⟨events', delivered⟩ := deliverUncaught_alone (s := s) host
    (m := m.without m.thread.frames [0] events) alone known
  exact ⟨_, (handleException_run known).trans (unwound.trans (bind_of_ok delivered)),
    ⟨List.drop_length, rfl, rfl, outermost⟩, rfl⟩

/-- A call that returned a value outside all frames is concluded with it. -/
theorem conclude_completed_alone {v : Value} {tag : Nat} (full : decl.type.result ≠ .void)
    (idle : m.thread.frames = []) (held : m.thread.operands = #[⟨v, tag⟩]) :
    conclude decl 0 .completed s m = .ok (.returned (some v))
      { m with thread := { m.thread with operands := #[] } } := by
  have depth : m.thread.operandDepth ≠ 0 := by
    rw [Thread.operandDepth, Thread.stackBase, idle, held]
    exact Nat.one_ne_zero
  have popped : popOperand s m = .ok ⟨v, tag⟩
      { m with thread := { m.thread with operands := #[] } } := by
    refine onThread_of_ok ?_
    rw [Thread.popOperand, if_neg depth, held]
    rfl
  rw [conclude, if_neg full]
  refine bind_of_ok (?_ : pop s m = .ok v _)
  exact bind_of_ok popped

/-- A call that an exception left outside all frames is concluded with it. -/
theorem conclude_uncaught_alone {exception : Handle} (idle : m.thread.frames = []) :
    conclude decl 0 (.uncaught exception) s m = .ok (.threw exception)
      { m with thread := { m.thread with operands := #[] } } := by
  have dropped : m.thread.truncate (m.thread.stackBase + 0) =
      { m.thread with operands := #[] } := by
    have base : m.thread.stackBase = 0 := by rw [Thread.stackBase, idle]
    rw [Thread.truncate, base]
    simp
  rw [conclude, dropTo, ← dropped]
  rfl

end Calls

end Exec

end JavaMachine
