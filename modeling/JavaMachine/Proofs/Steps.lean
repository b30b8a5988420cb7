import JavaMachine.Proofs.Opcodes
import JavaMachine.Proofs.Unwinding

/-!
# One instruction taken apart

An instruction is fetched and performed.  Fetching marks the address of the instruction and moves
behind its byte.  An instruction that goes on with the next one is then a sequence of moves; one
that returns leaves the current frame, hands its value to the frame below and counts down.
-/

namespace JavaMachine

/-- A machine in which a value was handed over, if there is one, and a mark was set. -/
def Machine.handed (m : Machine) (v : Option Value) (bare : Bool) : Machine :=
  { m with thread := { m.thread with
      operands := m.thread.operands ++ (v.toList.map fun v => (⟨v, m.tag⟩ : Operand)).toArray
      bare
      leaks := m.thread.leaks + v.toList.countP Value.isReturnAddress } }

theorem Machine.handed_operands (m : Machine) (v : Option Value) (bare : Bool) :
    (m.handed v bare).operands = m.operands ++ v.toList.map fun v => ⟨v, m.tag⟩ := by
  rw [Machine.operands, handed, Array.toList_append]

namespace Exec

open Relation (ReflTransGen)

variable {host : Host} {s : Settings} {m m' : Machine}

/-! ## Fetching -/

/-- The frame at the beginning of its next instruction, behind some of its bytes. -/
structure Fetched (f f' : Frame) : Prop where
  /-- The class is the same. -/
  cls : f'.cls = f.cls
  /-- The method is the same. -/
  method : f'.method = f.method
  /-- The operands begin at the same place. -/
  stackBase : f'.stackBase = f.stackBase
  /-- The instruction is the next one. -/
  instructionPc : f'.instructionPc = f.pc
  /-- The next byte is not behind the end of the code. -/
  pc : f.pc ≤ f.codeLength → f'.pc ≤ f'.codeLength
  /-- Longs and doubles among the local variables have their second slots. -/
  paired : f.Paired → f'.Paired

/-- Between two machines the current frame has begun its next instruction. -/
structure Fetches (f f' : Frame) (rest : List Frame) (m m' : Machine) : Prop where
  /-- The current frame was the first one. -/
  before : m.thread.frames = f :: rest
  /-- The current frame is the second one, and nothing else of the thread has changed. -/
  thread : m'.thread = { m.thread with frames := f' :: rest }
  /-- A halted machine stays halted. -/
  halted : m.world.halted = true → m'.world.halted = true
  /-- The instruction has begun. -/
  fetched : Fetched f f'

theorem Fetches.of_sameThread {f f' : Frame} {rest : List Frame} {mid : Machine}
    (h : Fetches f f' rest m mid) (sameThread : mid.SameThread m') : Fetches f f' rest m m' :=
  ⟨h.before, sameThread.thread.trans h.thread, sameThread.halted ∘ h.halted, h.fetched⟩

theorem traceOpcode_keeps {R : Machine → Machine → Prop} [AllowsWorld R] (byte : UInt8) :
    Keeps R (do
    if (← read).config.traceOpcodes then
      let f ← frame
      report (.execute f.instructionPc (Opcode.mnemonicOf byte) f.method.signature)
    return byte : Exec UInt8) := by
  refine read_keeps.bind fun s => ?_
  dsimp only
  split
  · exact frame_keeps.bind fun f => (report_keeps _).bind fun _ => .pure _
  · exact .pure _

/-- Fetching begins the next instruction of the current frame, also when there is no byte. -/
theorem fetch_cases (s : Settings) (m : Machine) :
    (∃ f f' rest, Fetches f f' rest m (fetch.after s m)) ∨
      ∃ e, fetch s m = .error (.fault e) m := by
  cases current : m.thread.frames with
  | nil =>
      refine .inr ⟨.noActiveFrame, ?_⟩
      have failed : moveFrame (fun f => .ok f.beginInstruction) s m =
          .error (.fault .noActiveFrame) m := by
        unfold moveFrame onFrame
        refine onThread_of_error ?_
        simp only [Thread.frame, current, bind, Except.bind]
      rw [fetch, bind_of_error failed]
  | cons f rest =>
      let begun : Machine :=
        { m with thread := { m.thread with frames := f.beginInstruction :: rest } }
      have first : moveFrame (fun f => .ok f.beginInstruction) s m = .ok () begun :=
        moveFrame_of_ok current rfl
      have begins : Fetches f f.beginInstruction rest m begun :=
        ⟨current, rfl, id, rfl, rfl, rfl, rfl, id, id⟩
      cases taken : f.beginInstruction.readBytes 1 with
      | error e =>
          have failed : readU8 s begun = .error (.fault e) begun := by
            refine bind_of_error (onThread_of_error ?_)
            simp only [Thread.frame, begun, bind, Except.bind, taken]
          refine .inl ⟨f, f.beginInstruction, rest, ?_⟩
          have run : fetch s m = .error (.fault e) begun := by
            rw [fetch, bind_of_ok first, bind_of_error failed]
          rwa [after_of_error run]
      | ok result =>
          obtain ⟨n, f'⟩ := result
          have later := (Frame.readBytes_moves taken).toLater
          let behind : Machine := { m with thread := { m.thread with frames := f' :: rest } }
          have second : readU8 s begun = .ok n.toUInt8 behind := by
            refine bind_of_ok (onThread_of_ok ?_)
            simp only [Thread.frame, Thread.setFrame, begun, bind, Except.bind, taken, pure,
              Except.pure, List.tail_cons]
          have fetches : Fetches f f' rest m behind :=
            ⟨current, rfl, id, later.cls, later.method, later.stackBase, later.instructionPc,
              later.pc, later.paired⟩
          refine .inl ⟨f, f', rest, fetches.of_sameThread ?_⟩
          have run : fetch s m = (do
              if (← read).config.traceOpcodes then
                let f ← frame
                report (.execute f.instructionPc (Opcode.mnemonicOf n.toUInt8) f.method.signature)
              return n.toUInt8 : Exec UInt8) s behind := by
            rw [fetch, bind_of_ok first, bind_of_ok second]
          have sameThread := traceOpcode_keeps (R := Machine.SameThread) n.toUInt8 s behind
          unfold after at sameThread ⊢
          rwa [run]

/-! ## Returning -/

/-- What a return takes from the frame that it leaves: the top operand, as a value of the result
type, or nothing. -/
inductive Yields (f : Frame) : Machine → Option Value → Machine → Prop
  | value {a b : Machine} {o : Operand} {v : Value} : Took a [o] b →
      o.value.coerceTo f.method.type.result = .ok v → Yields f a (some v) b
  | nothing (a : Machine) : Yields f a none a

theorem Yields.sameFrames {f : Frame} {v : Option Value} (h : Yields f m v m') :
    m.SameFrames m' := by
  cases h with
  | value took _ => exact took.allowed
  | nothing => exact Std.Refl.refl m

theorem Yields.samePending {f : Frame} {v : Option Value} (h : Yields f m v m') :
    m.SamePending m' := by
  cases h with
  | value took _ => rw [took.rest]; rfl
  | nothing => rfl

/-- A method that is not void yields a value unless it is left bare. -/
theorem Yields.isSome_iff {f : Frame} {v : Option Value} (h : Yields f m v m')
    (full : ¬ (v = none ∧ f.method.type.result ≠ .void)) :
    v.isSome = true ↔ f.method.type.result ≠ .void := by
  cases h with
  | nothing =>
      simp only [true_and, not_not] at full
      simp [full]
  | value _ coerced =>
      simp only [Option.isSome_some, true_iff]
      intro void
      rw [void] at coerced
      cases coerced

theorem handed_run (v : Option Value) :
    (v.forM hand : Exec PUnit) s m = .ok () (m.handed v m.thread.bare) := by
  cases v with
  | none => simp [Machine.handed]
  | some v =>
      simp [Machine.handed, hand, Thread.hand, Thread.push, Thread.pushOperand, Machine.tag]

/-- Leaving the current frame, when the run has one to leave. -/
theorem leave_run {f : Frame} {rest : List Frame} {n : Nat} {outer : List Nat} (v : Option Value)
    (current : m.thread.frames = f :: rest) (counter : m.thread.depths = (n + 1) :: outer) :
    ∃ events, leave v s m = .ok (if n = 0 then .leave else .next)
      ((m.without [f] (n :: outer) events).handed v m.thread.bare) := by
  obtain ⟨events, popped⟩ := popFrame_run (s := s) current
  refine ⟨events, ?_⟩
  have counted : leaveDepth s ((m.without [f] m.thread.depths events).handed v m.thread.bare) =
      .ok n ((m.without [f] (n :: outer) events).handed v m.thread.bare) := leaveDepth_run counter
  have pushed : (v.forM hand : Exec PUnit) s (m.without [f] m.thread.depths events) =
      .ok () ((m.without [f] m.thread.depths events).handed v m.thread.bare) := handed_run v
  rw [leave, bind_of_ok (discard_of_ok popped), bind_of_ok pushed, bind_of_ok counted]
  split
  · rfl
  · rfl

/-- Leaving the current frame, when the run has none to leave. -/
theorem leave_uncounted {f : Frame} {rest : List Frame} (v : Option Value)
    (current : m.thread.frames = f :: rest)
    (counter : m.thread.depths = [] ∨ ∃ outer, m.thread.depths = 0 :: outer) :
    ∃ events e, leave v s m = .error (.fault e)
      ((m.without [f] m.thread.depths events).handed v m.thread.bare) := by
  obtain ⟨events, popped⟩ := popFrame_run (s := s) current
  obtain ⟨e, failed⟩ := leaveDepth_error (s := s)
    (m := (m.without [f] m.thread.depths events).handed v m.thread.bare) counter
  have pushed : (v.forM hand : Exec PUnit) s (m.without [f] m.thread.depths events) =
      .ok () ((m.without [f] m.thread.depths events).handed v m.thread.bare) := handed_run v
  exact ⟨events, e, by
    rw [leave, bind_of_ok (discard_of_ok popped), bind_of_ok pushed, bind_of_error failed]⟩

/-! ## Performing -/

/-- What an instruction that has a result does to a machine. -/
inductive Stepped (d : Discipline) (host : Host) (s : Settings) (m : Machine) :
    Flow → Machine → Prop
  /-- It goes on with the next one, after some moves. -/
  | plain {a m' : Machine} {f f' : Frame} {rest : List Frame} : Fetches f f' rest m a →
      ReflTransGen (Move d host.toReentry s) a m' → Stepped d host s m .next m'
  /-- It leaves the current frame.  The run is over when this was its last one, which is marked
  when the frame should have left a value. -/
  | returned {a b : Machine} {f f' : Frame} {rest : List Frame} {v : Option Value} {n : Nat}
      {outer : List Nat} {events : Array Event} {bare : Bool} : Fetches f f' rest m a →
      Yields f' a v b → b.thread.depths = (n + 1) :: outer →
      (bare = true ↔ b.thread.bare = true ∨
        n = 0 ∧ v = none ∧ f'.method.type.result ≠ .void) →
      Stepped d host s m (if n = 0 then .leave else .next)
        ((b.without [f'] (n :: outer) events).handed v bare)

/-- How an instruction stops. -/
inductive StepStop (d : Discipline) (host : Host) (s : Settings) (m : Machine) (stop : Stop) :
    Machine → Prop
  /-- There is no frame. -/
  | unfetched : StepStop d host s m stop m
  /-- The instruction stops after some moves. -/
  | moved {a mid m' : Machine} {f f' : Frame} {rest : List Frame} : Fetches f f' rest m a →
      ReflTransGen (Move d host.toReentry s) a mid → MoveStop d host.toReentry s stop mid m' →
      StepStop d host s m stop m'
  /-- It leaves a frame that the run did not have. -/
  | uncounted {a b : Machine} {f f' : Frame} {rest : List Frame} {v : Option Value}
      {events : Array Event} : Fetches f f' rest m a → Yields f' a v b →
      (b.thread.depths = [] ∨ ∃ outer, b.thread.depths = 0 :: outer) →
      StepStop d host s m stop ((b.without [f'] b.thread.depths events).handed v b.thread.bare)

theorem fetch_ok {byte : UInt8} (h : fetch s m = .ok byte m') :
    ∃ f f' rest, Fetches f f' rest m m' := by
  obtain fetches | ⟨e, failed⟩ := fetch_cases s m
  · rwa [after_of_ok h] at fetches
  · rw [failed] at h
    cases h

theorem Fetches.frames {f f' : Frame} {rest : List Frame} (h : Fetches f f' rest m m') :
    m'.thread.frames = f' :: rest := by rw [h.thread]

theorem Yields.frames {f g : Frame} {rest : List Frame} {v : Option Value}
    (h : Yields f m v m') (current : m.thread.frames = g :: rest) :
    m'.thread.frames = g :: rest := h.sameFrames.frames_eq.trans current

/-- A return yields what it takes, and leaves the frame. -/
theorem returnValue_split {f : Frame} {rest : List Frame} (current : m.thread.frames = f :: rest) :
    (∃ v b, Yields f m (some v) b ∧ returnValue s m = leave (some v) s b) ∨
      ∃ stop b, m.SameFrames b ∧ returnValue s m = .error stop b := by
  have run : returnValue s m = (do
      let v ← ofExcept ((← pop).coerceTo f.method.type.result)
      leave (some v) : Exec Flow) s m := by
    rw [returnValue, bind_of_ok (frame_of_cons current)]
  cases popped : popOperand s m with
  | error stop b =>
      have failed : pop s m = .error stop b := bind_of_error popped
      exact .inr ⟨stop, b, popOperand_keeps.of_error popped, by rw [run, bind_of_error failed]⟩
  | ok o b =>
      have took := popOperand_took popped
      have found : pop s m = .ok o.value b := bind_of_ok popped
      cases coerced : o.value.coerceTo f.method.type.result with
      | error e =>
          refine .inr ⟨.fault e, b, took.allowed, ?_⟩
          rw [run, bind_of_ok found, coerced]
          rfl
      | ok v =>
          refine .inl ⟨v, b, .value took coerced, ?_⟩
          rw [run, bind_of_ok found, coerced]
          rfl

theorem returnVoid_run {f : Frame} {rest : List Frame} (current : m.thread.frames = f :: rest) :
    returnVoid s m = (do
      let flow ← leave none
      if flow = .leave ∧ f.method.type.result ≠ .void then modifyThread ({ · with bare := true })
      return flow : Exec Flow) s m := by
  rw [returnVoid, bind_of_ok (frame_of_cons current)]

theorem markBare_run (flow : Flow) (empty : Prop) [Decidable empty] :
    (do
      if flow = .leave ∧ empty then modifyThread ({ · with bare := true })
      return flow : Exec Flow) s m = .ok flow { m with thread := { m.thread with
        bare := m.thread.bare || decide (flow = .leave ∧ empty) } } := by
  split
  next marked => simp [marked]; rfl
  next plain => simp [plain]

theorem perform_plain {op : Opcode} (value : op ≠ .returnValue) (void : op ≠ .returnVoid) :
    perform host op = do performPlain host op; return .next := by
  cases op with
  | returnValue => exact absurd rfl value
  | returnVoid => exact absurd rfl void
  | _ => rfl

theorem leave_returned {a : Machine} {f f' : Frame} {rest : List Frame}
    {v : Option Value} {flow : Flow} (fetches : Fetches f f' rest m a) {b : Machine}
    (yields : Yields f' a v b) (h : leave v s b = .ok flow m') :
    ∃ n outer events, b.thread.depths = (n + 1) :: outer ∧
      flow = (if n = 0 then .leave else .next) ∧
      m' = (b.without [f'] (n :: outer) events).handed v b.thread.bare := by
  have current := yields.frames fetches.frames
  have uncounted (counter : b.thread.depths = [] ∨ ∃ outer, b.thread.depths = 0 :: outer) :
      False := by
    obtain ⟨events, e, run⟩ := leave_uncounted (s := s) v current counter
    rw [run] at h
    cases h
  cases counter : b.thread.depths with
  | nil => exact absurd (.inl counter) uncounted
  | cons k outer =>
      cases k with
      | zero => exact absurd (.inr ⟨outer, counter⟩) uncounted
      | succ n =>
          obtain ⟨events, run⟩ := leave_run (s := s) v current counter
          rw [run] at h
          cases h
          exact ⟨n, outer, events, rfl, rfl, rfl⟩

theorem leave_stopped {d : Discipline} {a : Machine} {f f' : Frame} {rest : List Frame}
    {v : Option Value} {stop : Stop} (fetches : Fetches f f' rest m a) {b : Machine}
    (yields : Yields f' a v b) (h : leave v s b = .error stop m') :
    StepStop d host s m stop m' := by
  have current := yields.frames fetches.frames
  have uncounted (counter : b.thread.depths = [] ∨ ∃ outer, b.thread.depths = 0 :: outer) :
      StepStop d host s m stop m' := by
    obtain ⟨events, e, run⟩ := leave_uncounted (s := s) v current counter
    rw [run] at h
    cases h
    exact .uncounted fetches yields counter
  cases counter : b.thread.depths with
  | nil => exact uncounted (.inl counter)
  | cons k outer =>
      cases k with
      | zero => exact uncounted (.inr ⟨outer, counter⟩)
      | succ n =>
          obtain ⟨events, run⟩ := leave_run (s := s) v current counter
          rw [run] at h
          cases h

/-- An instruction that has a result. -/
theorem step_ok {d : Discipline} (hn : host.natives.Keep d host.toReentry) (hset : host.Settles)
    (ready : d.Ready m) {flow : Flow} (h : step host s m = .ok flow m') :
    Stepped d host s m flow m' := by
  obtain ⟨byte, a, fetched, h⟩ := bind_eq_ok h
  obtain ⟨f, f', rest, fetches⟩ := fetch_ok fetched
  have still : d.Ready a := fun clear => by rw [fetches.thread]; exact ready clear
  have plain := Opcode.namesAddress_ofByte byte
  generalize Opcode.ofByte byte = op at h plain
  by_cases value : op = .returnValue
  · subst value
    obtain ⟨v, b, yields, run⟩ | ⟨stop, b, -, run⟩ := returnValue_split (s := s) fetches.frames
    · have left : leave (some v) s b = .ok flow m' := run.symm.trans h
      obtain ⟨n, outer, events, counter, rfl, rfl⟩ := leave_returned fetches yields left
      refine .returned fetches yields counter ?_
      simp
    · have failed : returnValue s a = .ok flow m' := h
      rw [run] at failed
      cases failed
  · by_cases void : op = .returnVoid
    · subst void
      have run := returnVoid_run (s := s) fetches.frames
      have whole : returnVoid s a = .ok flow m' := h
      rw [run] at whole
      obtain ⟨flow', b, left, last⟩ := bind_eq_ok whole
      obtain ⟨n, outer, events, counter, rfl, rfl⟩ :=
        leave_returned fetches (.nothing a) left
      rw [markBare_run] at last
      cases last
      have leaves : (if n = 0 then Flow.leave else .next) = .leave ↔ n = 0 := by
        split
        next last => simp [last]
        next more => simp [more]
      refine .returned fetches (.nothing a) counter ?_
      simp [leaves, Machine.handed]
    · rw [perform_plain value void] at h
      obtain ⟨_, b, performed, h⟩ := bind_eq_ok h
      cases h
      exact .plain fetches ((performPlain_along (moves_admits hn hset) plain).of_ok still performed).1

/-- An instruction that stops. -/
theorem step_error {d : Discipline} (hn : host.natives.Keep d host.toReentry) (hset : host.Settles)
    (ready : d.Ready m) {stop : Stop} (h : step host s m = .error stop m') :
    StepStop d host s m stop m' := by
  obtain failed | ⟨byte, a, fetched, h⟩ := bind_eq_error h
  · obtain ⟨f, f', rest, fetches⟩ | ⟨e, run⟩ := fetch_cases s m
    · rw [after_of_error failed] at fetches
      exact .moved fetches .refl (.within (Std.Refl.refl _))
    · rw [run] at failed
      cases failed
      exact .unfetched
  · obtain ⟨f, f', rest, fetches⟩ := fetch_ok fetched
    have still : d.Ready a := fun clear => by rw [fetches.thread]; exact ready clear
    have plain := Opcode.namesAddress_ofByte byte
    generalize Opcode.ofByte byte = op at h plain
    by_cases value : op = .returnValue
    · subst value
      have whole : returnValue s a = .error stop m' := h
      obtain ⟨v, b, yields, run⟩ | ⟨stop', b, sameFrames, run⟩ :=
        returnValue_split (s := s) fetches.frames
      · exact leave_stopped fetches yields (run.symm.trans whole)
      · rw [run] at whole
        cases whole
        exact .moved fetches .refl (.within sameFrames.toWithin)
    · by_cases void : op = .returnVoid
      · subst void
        have whole : returnVoid s a = .error stop m' := h
        rw [returnVoid_run fetches.frames] at whole
        obtain failed | ⟨flow, b, -, last⟩ := bind_eq_error whole
        · exact leave_stopped fetches (.nothing a) failed
        · rw [markBare_run] at last
          cases last
      · rw [perform_plain value void] at h
        obtain failed | ⟨_, b, -, h⟩ := bind_eq_error h
        · obtain ⟨mid, steps, stops⟩ := (performPlain_along (moves_admits hn hset) plain).of_error still failed
          exact .moved fetches steps stops
        · cases h

end Exec

end JavaMachine
