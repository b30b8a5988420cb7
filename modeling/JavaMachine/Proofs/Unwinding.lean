import JavaMachine.Proofs.Hierarchy
import JavaMachine.Proofs.Stacks
import Mathlib.Data.List.DropRight

/-!
# Unwinding

An exception goes to the innermost handler of the run: the frames of the run are searched from the
current one on, the rows of each frame in declaration order, and every frame without a handler is
left.  This module says exactly which machine the search comes to.

`Machine.without` is the machine in which the topmost frames have been left: their monitors are
exited, in the order in which the frames are left and within a frame the one entered last first,
and the operands are cut where the lowest of them began.  One frame is left by `popFrame` and
`leaveDepth`, and leaving frames one after the other is leaving them together
(`Machine.without_without`); the search then follows by induction on the frames that it leaves.
What it comes to at one frame, also when it stops there, is `unwind_cases`.
-/

namespace JavaMachine

/-! ## Frames that are left -/

/-- Gives up one level of each of some monitors. -/
def Monitors.exitAll (ms : Monitors) (t : ThreadId) (keys : List MonitorKey) : Monitors :=
  keys.foldl (fun ms k => ms.set k ((ms.get k).exit t).2) ms

/-- The number of operands that are left when some frames are left, the current one first. -/
def Frame.roof (size : Nat) (left : List Frame) : Nat :=
  left.foldl (fun n f => min n f.stackBase) size

theorem Frame.roof_le (left : List Frame) : ∀ size, Frame.roof size left ≤ size := by
  induction left with
  | nil => exact fun size => Nat.le_refl size
  | cons f left ih => exact fun size => Nat.le_trans (ih _) (Nat.min_le_left _ _)

theorem Frame.le_roof {base : Nat} (left : List Frame) (h : ∀ f ∈ left, base ≤ f.stackBase) :
    ∀ {size : Nat}, base ≤ size → base ≤ Frame.roof size left := by
  induction left with
  | nil => exact fun reached => reached
  | cons f left ih =>
      intro size reached
      refine ih (fun g hg => h g (List.mem_cons_of_mem f hg)) ?_
      exact Nat.le_min.mpr ⟨reached, h f List.mem_cons_self⟩

/-- What one frame leaves are the operands below its own. -/
theorem Frame.take_roof (operands : Array Operand) (f : Frame) :
    operands.take (Frame.roof operands.size [f]) = operands.take f.stackBase := by
  apply Array.toList_inj.mp
  rw [Operand.toList_take, Operand.toList_take]
  simp only [Frame.roof, List.foldl_cons, List.foldl_nil, ← Array.length_toList]
  rw [Nat.min_comm, ← List.take_eq_take_min]

/-- In a well-formed thread the frames that are left end where the lowest of them began. -/
theorem Frame.roof_concat {size : Nat} {upper : List Frame} {f : Frame}
    (ordered : ∀ g ∈ upper, f.stackBase ≤ g.stackBase) (reached : f.stackBase ≤ size) :
    Frame.roof size (upper ++ [f]) = f.stackBase := by
  have lower := Frame.le_roof upper ordered reached
  unfold Frame.roof at lower ⊢
  rw [List.foldl_append, List.foldl_cons, List.foldl_nil]
  exact Nat.min_eq_right lower

namespace Machine

/-- The machine in which the topmost frames of a thread were left, with new counters and events. -/
def without (m : Machine) (left : List Frame) (depths : List Nat) (events : Array Event) :
    Machine where
  world :=
    { m.world with
      monitors := m.world.monitors.exitAll m.thread.id (left.flatMap Frame.monitors), events }
  thread :=
    { m.thread with
      frames := m.thread.frames.drop left.length
      operands := m.thread.operands.take (Frame.roof m.thread.operands.size left), depths }

theorem without_nil (m : Machine) (events : Array Event) :
    m.without [] m.thread.depths events = { m with world := { m.world with events } } := by
  simp [without, Monitors.exitAll, Frame.roof]

theorem without_without (m : Machine) (f : Frame) (left : List Frame) (depths depths' : List Nat)
    (events events' : Array Event) :
    (m.without [f] depths events).without left depths' events' =
      m.without (f :: left) depths' events' := by
  have size : (m.thread.operands.take (min m.thread.operands.size f.stackBase)).size =
      min m.thread.operands.size f.stackBase := by
    simp
  have lower := Frame.roof_le left (min m.thread.operands.size f.stackBase)
  have operands : (m.thread.operands.take (min m.thread.operands.size f.stackBase)).take
      (Frame.roof (min m.thread.operands.size f.stackBase) left) =
      m.thread.operands.take (Frame.roof (min m.thread.operands.size f.stackBase) left) := by
    apply Array.toList_inj.mp
    rw [Operand.toList_take, Operand.toList_take, Operand.toList_take,
      List.take_take, Nat.min_eq_left lower]
  simp only [without, Frame.roof, List.foldl_cons, List.foldl_nil, List.flatMap_cons,
    List.flatMap_nil, List.append_nil, List.length_cons, List.length_nil, Nat.zero_add,
    Monitors.exitAll, List.foldl_append, List.drop_drop, Nat.add_comm 1]
  rw [size]
  unfold Frame.roof at operands
  rw [operands]

end Machine

namespace Exec

variable {s : Settings} {m : Machine}

theorem exitAll_run (keys : List MonitorKey) :
    (keys.forM fun k => discard (exitMonitor k) : Exec PUnit) s m = .ok ()
      { m with world :=
          { m.world with monitors := m.world.monitors.exitAll m.thread.id keys } } := by
  induction keys generalizing m with
  | nil => rfl
  | cons k keys ih =>
      have first : (discard (exitMonitor k) : Exec PUnit) s m = .ok () { m with world :=
          { m.world with monitors := m.world.monitors.exitAll m.thread.id [k] } } := rfl
      have run : ((k :: keys).forM fun k => discard (exitMonitor k) : Exec PUnit) =
          discard (exitMonitor k) >>= fun _ => keys.forM fun k => discard (exitMonitor k) := rfl
      rw [run, bind_of_ok first, ih]
      rfl

/-- Leaving the current frame. -/
theorem popFrame_run {f : Frame} {rest : List Frame} (current : m.thread.frames = f :: rest) :
    ∃ events, popFrame s m = .ok f.method (m.without [f] m.thread.depths events) := by
  obtain ⟨events, reported⟩ := report_run (s := s)
    (m := m.without [f] m.thread.depths m.world.events)
    (.popFrame f.method.signature (m.without [f] m.thread.depths m.world.events).thread.frames.length)
  refine ⟨events, ?_⟩
  have monitors : [f].flatMap Frame.monitors = f.monitors := by
    rw [List.flatMap_cons, List.flatMap_nil, List.append_nil]
  have run : popFrame s m = (do
      report (.popFrame f.method.signature (← thread).frames.length)
      return f.method : Exec MethodDecl) s (m.without [f] m.thread.depths m.world.events) := by
    rw [popFrame, bind_of_ok (frame_of_cons current), bind_of_ok (modifyThread_run _),
      bind_of_ok (exitAll_run _), bind_of_ok (modifyThread_run _)]
    simp only [Machine.without, Thread.truncate, Frame.take_roof, monitors, List.length_singleton,
      List.drop_one]
  rw [run, bind_of_ok thread_run, bind_of_ok reported]
  rfl

/-- Counting the frame that was left. -/
theorem leaveDepth_run {n : Nat} {outer : List Nat} (counter : m.thread.depths = (n + 1) :: outer) :
    leaveDepth s m = .ok n { m with thread := { m.thread with depths := n :: outer } } := by
  refine onThread_of_ok ?_
  rw [Thread.shallow, counter]

end Exec

/-! ## The frame that catches -/

/-- Cutting off what lies on top and has a property keeps what lies below a base, and cuts the rest
from its top. -/
theorem take_sub_takeWhile (l : List Operand) (base : Nat) (p : Operand → Bool) :
    l.take (l.length - ((l.drop base).reverse.takeWhile p).length) =
      l.take base ++ (l.drop base).rdropWhile p := by
  have split : l = (l.take base ++ (l.drop base).rdropWhile p) ++ (l.drop base).rtakeWhile p := by
    rw [List.append_assoc, List.rdropWhile_append_rtakeWhile, List.take_append_drop]
  have length : ((l.drop base).rtakeWhile p).length =
      ((l.drop base).reverse.takeWhile p).length := by
    rw [List.rtakeWhile, List.length_reverse]
  rw [← length]
  generalize (l.drop base).rtakeWhile p = top at split
  generalize l.take base ++ (l.drop base).rdropWhile p = kept at split
  subst split
  rw [List.length_append, Nat.add_sub_cancel, List.take_left]

/-- The operands of a thread whose current frame has caught an exception: those of the frame that
the region of the handler had not pushed are kept, and the exception lies on top. -/
def caughtOperands (ops : List Operand) (f : Frame) (h : Handler) (exception : Handle) :
    List Operand :=
  ops.take f.stackBase ++
    (ops.drop f.stackBase).rdropWhile (fun o => h.startPc.toNat ≤ o.pushedAt) ++
    [⟨.object exception, f.instructionPc⟩]

/-- The machine in which a frame on top of others has caught an exception. -/
def Machine.caught (m : Machine) (f : Frame) (rest : List Frame) (h : Handler)
    (exception : Handle) : Machine :=
  { m with thread := { m.thread with
      frames := { f with pc := h.handlerPc.toNat } :: rest
      operands := (caughtOperands m.operands f h exception).toArray
      pending := none } }

namespace Exec

variable {s : Settings} {m : Machine}

/-- Going on at a handler inside the code. -/
theorem catchException_run {f : Frame} {rest : List Frame} {h : Handler} {exception : Handle}
    (current : m.thread.frames = f :: rest) (inside : h.handlerPc.toNat < f.codeLength) :
    catchException h exception s m = .ok () (m.caught f rest h exception) := by
  have jumped : f.jump h.handlerPc.toNat = .ok { f with pc := h.handlerPc.toNat } := by
    rw [Frame.jump, if_pos inside]
  let left := m.thread.operands.size - m.thread.countFrom h.startPc.toNat
  have rewound : rewind h.startPc.toNat s m =
      .ok (m.thread.countFrom h.startPc.toNat) { m with thread := m.thread.truncate left } := rfl
  have kept : m.thread.operands.toList.take left = m.operands.take f.stackBase ++
      (m.operands.drop f.stackBase).rdropWhile (fun o => h.startPc.toNat ≤ o.pushedAt) := by
    simp only [left]
    rw [Thread.countFrom, Thread.frameOperands, Thread.stackBase, current, ← Array.length_toList]
    exact take_sub_takeWhile _ _ _
  have operands : (m.thread.operands.take left).push ⟨.object exception, f.instructionPc⟩ =
      (caughtOperands m.operands f h exception).toArray := by
    apply Array.toList_inj.mp
    rw [Array.toList_push, Operand.toList_take, kept]
    rfl
  have current' : (m.thread.truncate left).frames = f :: rest := current
  have moved : moveFrame (·.jump h.handlerPc.toNat) s { m with thread := m.thread.truncate left } =
      .ok () { m with thread := { m.thread.truncate left with
        frames := { f with pc := h.handlerPc.toNat } :: rest } } := moveFrame_of_ok current' jumped
  rw [Machine.caught, ← operands, catchException, bind_of_ok rewound, bind_of_ok moved]
  rfl

/-! ## The search for a handler -/

section Search

variable (host : Host) (exception : Handle) (cls : String) (level : Nat)

/-- A frame with a handler ends the search. -/
theorem unwind_caught {f : Frame} {rest : List Frame} {h : Handler} (fuel : Nat)
    (current : m.thread.frames = f :: rest)
    (found : m.world.library.findHandler f.method f.instructionPc cls = some h)
    (inside : h.handlerPc.toNat < f.codeLength) :
    ∃ events, unwind host exception cls level (fuel + 1) s m =
      .ok none ((m.without [] m.thread.depths events).caught f rest h exception) := by
  obtain ⟨events, reported⟩ := report_run (s := s) (m := m)
    (.caught cls f.method.signature f.instructionPc h.handlerPc.toNat)
  refine ⟨events, ?_⟩
  rw [unwind, bind_of_ok (frame_of_cons current), bind_of_ok library_run]
  simp only [found]
  have caught : catchException h exception s { m with world := { m.world with events } } =
      .ok () (Machine.caught { m with world := { m.world with events } } f rest h exception) :=
    catchException_run current inside
  rw [bind_of_ok reported, bind_of_ok caught, Machine.without_nil]
  rfl

/-- A frame without a handler is left, and the search goes on if it was not the last one of the
run. -/
theorem unwind_left {f : Frame} {rest : List Frame} {n : Nat} {outer : List Nat} (fuel : Nat)
    (current : m.thread.frames = f :: rest) (counter : m.thread.depths = (n + 1) :: outer)
    (missing : m.world.library.findHandler f.method f.instructionPc cls = none) :
    ∃ events, unwind host exception cls level (fuel + 1) s m =
      (if n = 0 then
        if level = 1 then some <$> deliverUncaught host exception
        else pure (some (.exceptionPending exception))
      else unwind host exception cls level fuel : Exec (Option RunOutcome)) s
        (m.without [f] (n :: outer) events) := by
  obtain ⟨events, popped⟩ := popFrame_run (s := s) current
  refine ⟨events, ?_⟩
  have counted : leaveDepth s (m.without [f] m.thread.depths events) =
      .ok n (m.without [f] (n :: outer) events) := leaveDepth_run counter
  rw [unwind, bind_of_ok (frame_of_cons current), bind_of_ok library_run]
  simp only [missing]
  rw [bind_of_ok (discard_of_ok popped), bind_of_ok counted]
  split
  · split
    · rfl
    · rfl
  · rfl

/-- The search leaves the frames in front of a handler and goes on there. -/
theorem unwind_to_handler {f : Frame} {rest : List Frame} {h : Handler} {outer : List Nat}
    (left : List Frame) : ∀ {m : Machine} {n fuel : Nat},
    m.thread.frames = left ++ f :: rest → m.thread.depths = n :: outer → left.length < n →
    left.length < fuel →
    (∀ g ∈ left, m.world.library.findHandler g.method g.instructionPc cls = none) →
    m.world.library.findHandler f.method f.instructionPc cls = some h →
    h.handlerPc.toNat < f.codeLength →
    ∃ events, unwind host exception cls level fuel s m =
      .ok none ((m.without left ((n - left.length) :: outer) events).caught f rest h exception) := by
  induction left with
  | nil =>
      intro m n fuel current counter _ enough _ found inside
      rw [List.length_nil] at enough
      obtain ⟨fuel, rfl⟩ : ∃ k, fuel = k + 1 := ⟨fuel - 1, by omega⟩
      obtain ⟨events, run⟩ := unwind_caught (s := s) host exception cls level fuel current found inside
      rw [counter] at run
      exact ⟨events, run⟩
  | cons g left ih =>
      intro m n fuel current counter owned enough missing found inside
      simp only [List.length_cons] at owned enough
      obtain ⟨fuel, rfl⟩ : ∃ k, fuel = k + 1 := ⟨fuel - 1, by omega⟩
      obtain ⟨n, rfl⟩ : ∃ k, n = k + 1 := ⟨n - 1, by omega⟩
      obtain ⟨events, run⟩ := unwind_left (s := s) host exception cls level fuel current counter
        (missing g List.mem_cons_self)
      have notLast : ¬ n = 0 := by omega
      rw [if_neg notLast] at run
      have next : (m.without [g] (n :: outer) events).thread.frames = left ++ f :: rest := by
        simp only [Machine.without, current, List.length_singleton, List.cons_append, List.drop_one,
          List.tail_cons]
      have owned' : left.length < n := by omega
      have enough' : left.length < fuel := by omega
      obtain ⟨events', run'⟩ := ih next rfl owned' enough'
        (fun g' hg' => missing g' (List.mem_cons_of_mem g hg')) found inside
      refine ⟨events', run.trans (run'.trans ?_)⟩
      rw [Machine.without_without, List.length_cons, Nat.add_sub_add_right]

/-- The search leaves all frames of the run when none of them has a handler. -/
theorem unwind_to_end {rest : List Frame} {outer : List Nat} (left : List Frame) :
    ∀ {m : Machine} {fuel : Nat}, left ≠ [] → m.thread.frames = left ++ rest →
    m.thread.depths = left.length :: outer → left.length < fuel + 1 →
    (∀ g ∈ left, m.world.library.findHandler g.method g.instructionPc cls = none) →
    ∃ events, unwind host exception cls level fuel s m =
      (if level = 1 then some <$> deliverUncaught host exception
        else pure (some (.exceptionPending exception)) : Exec (Option RunOutcome)) s
        (m.without left (0 :: outer) events) := by
  induction left with
  | nil => exact fun nonempty => absurd rfl nonempty
  | cons g left ih =>
      intro m fuel _ current counter enough missing
      rw [List.length_cons] at counter enough
      obtain ⟨fuel, rfl⟩ : ∃ k, fuel = k + 1 := ⟨fuel - 1, by omega⟩
      obtain ⟨events, run⟩ := unwind_left (s := s) host exception cls level fuel current counter
        (missing g List.mem_cons_self)
      cases left with
      | nil => exact ⟨events, run⟩
      | cons g' left =>
          have notLast : ¬ (g' :: left).length = 0 := by simp
          rw [if_neg notLast] at run
          have next : (m.without [g] ((g' :: left).length :: outer) events).thread.frames =
              (g' :: left) ++ rest := by
            simp only [Machine.without, current, List.length_singleton, List.cons_append,
              List.drop_one, List.tail_cons]
          have enough' : (g' :: left).length < fuel + 1 := by omega
          obtain ⟨events', run'⟩ := ih (List.cons_ne_nil _ _) next rfl enough'
            fun k hk => missing k (List.mem_cons_of_mem g hk)
          refine ⟨events', run.trans (run'.trans ?_)⟩
          rw [Machine.without_without]

/-- What the search for a handler consists of, when it has an answer. -/
inductive Unwound (host : Host) (exception : Handle) (cls : String) (level : Nat) (s : Settings) :
    Machine → Option RunOutcome → Machine → Prop
  /-- The current frame has a handler. -/
  | caught {m : Machine} {f : Frame} {rest : List Frame} {h : Handler} {events : Array Event} :
      m.thread.frames = f :: rest → h.handlerPc.toNat < f.codeLength →
      Unwound host exception cls level s m none
        ((m.without [] m.thread.depths events).caught f rest h exception)
  /-- The last frame of the run is left, and the exception stays pending. -/
  | ended {m : Machine} {f : Frame} {rest : List Frame} {outer : List Nat}
      {events : Array Event} : m.thread.frames = f :: rest → m.thread.depths = 1 :: outer →
      level ≠ 1 → Unwound host exception cls level s m (some (.exceptionPending exception))
        (m.without [f] (0 :: outer) events)
  /-- The last frame of the run is left, and the exception is delivered. -/
  | delivered {m m' : Machine} {f : Frame} {rest : List Frame} {outer : List Nat}
      {events : Array Event} {o : RunOutcome} : m.thread.frames = f :: rest →
      m.thread.depths = 1 :: outer → level = 1 →
      deliverUncaught host exception s (m.without [f] (0 :: outer) events) = .ok o m' →
      Unwound host exception cls level s m (some o) m'
  /-- A frame is left, and the search goes on. -/
  | left {m m' : Machine} {f : Frame} {rest : List Frame} {n : Nat} {outer : List Nat}
      {events : Array Event} {o : Option RunOutcome} : m.thread.frames = f :: rest →
      m.thread.depths = (n + 2) :: outer →
      Unwound host exception cls level s (m.without [f] ((n + 1) :: outer) events) o m' →
      Unwound host exception cls level s m o m'

/-- How the search for a handler stops. -/
inductive UnwindStop (host : Host) (exception : Handle) (s : Settings) (stop : Stop) :
    Machine → Machine → Prop
  /-- No frame was left: there is none, or its handler lies outside the code. -/
  | here {m m' : Machine} : m.SameFrames m' → UnwindStop host exception s stop m m'
  /-- A frame was left that the run did not have. -/
  | uncounted {m : Machine} {f : Frame} {rest : List Frame} {events : Array Event} :
      m.thread.frames = f :: rest → (m.thread.depths = [] ∨ ∃ outer, m.thread.depths = 0 :: outer) →
      UnwindStop host exception s stop m (m.without [f] m.thread.depths events)
  /-- The last frame of the run was left, and delivering the exception stops. -/
  | delivering {m m' : Machine} {f : Frame} {rest : List Frame} {outer : List Nat}
      {events : Array Event} : m.thread.frames = f :: rest → m.thread.depths = 1 :: outer →
      deliverUncaught host exception s (m.without [f] (0 :: outer) events) = .error stop m' →
      UnwindStop host exception s stop m m'
  /-- A frame was left, and the search stops later. -/
  | left {m m' : Machine} {f : Frame} {rest : List Frame} {n : Nat} {outer : List Nat}
      {events : Array Event} : m.thread.frames = f :: rest → m.thread.depths = (n + 2) :: outer →
      UnwindStop host exception s stop (m.without [f] ((n + 1) :: outer) events) m' →
      UnwindStop host exception s stop m m'

/-- A handler outside the code stops the search when the operands were dropped. -/
theorem unwind_outside {f : Frame} {rest : List Frame} {h : Handler} (fuel : Nat)
    (current : m.thread.frames = f :: rest)
    (found : m.world.library.findHandler f.method f.instructionPc cls = some h)
    (outside : ¬ h.handlerPc.toNat < f.codeLength) :
    ∃ m' e, m.SameFrames m' ∧
      unwind host exception cls level (fuel + 1) s m = .error (.fault e) m' := by
  obtain ⟨events, reported⟩ := report_run (s := s) (m := m)
    (.caught cls f.method.signature f.instructionPc h.handlerPc.toNat)
  let told : Machine := { m with world := { m.world with events } }
  let left := m.thread.operands.size - m.thread.countFrom h.startPc.toNat
  have rewound : rewind h.startPc.toNat s told =
      .ok (m.thread.countFrom h.startPc.toNat) { told with thread := m.thread.truncate left } := rfl
  have refused : moveFrame (·.jump h.handlerPc.toNat) s
      { told with thread := m.thread.truncate left } =
      .error (.fault (.codeExhausted h.handlerPc.toNat f.codeLength))
        { told with thread := m.thread.truncate left } := by
    have current' : (m.thread.truncate left).frames = f :: rest := current
    unfold moveFrame onFrame
    refine onThread_of_error ?_
    simp only [Thread.frame, current', bind, Except.bind, Frame.jump, if_neg outside]
  have sameFrames : m.SameFrames { told with thread := m.thread.truncate left } :=
    IsTrans.trans _ _ _ ((report_keeps _).of_ok reported) ((rewind_keeps _).of_ok rewound)
  refine ⟨_, .codeExhausted h.handlerPc.toNat f.codeLength, sameFrames, ?_⟩
  rw [unwind, bind_of_ok (frame_of_cons current), bind_of_ok library_run]
  simp only [found]
  rw [bind_of_ok reported, bind_of_error]
  rw [catchException, bind_of_ok rewound, bind_of_error refused]

theorem leaveDepth_error (h : m.thread.depths = [] ∨ ∃ outer, m.thread.depths = 0 :: outer) :
    ∃ e, leaveDepth s m = .error (.fault e) m := by
  obtain empty | ⟨outer, zero⟩ := h
  · have failed : m.thread.shallow = .error .depthStackEmpty := by rw [Thread.shallow, empty]
    exact ⟨_, onThread_of_error failed⟩
  · have failed : m.thread.shallow = .error .depthUnderflow := by rw [Thread.shallow, zero]
    exact ⟨_, onThread_of_error failed⟩

/-- A frame without a handler is left although the run has no frame to leave. -/
theorem unwind_uncounted {f : Frame} {rest : List Frame} (fuel : Nat)
    (current : m.thread.frames = f :: rest)
    (counter : m.thread.depths = [] ∨ ∃ outer, m.thread.depths = 0 :: outer)
    (missing : m.world.library.findHandler f.method f.instructionPc cls = none) :
    ∃ events e, unwind host exception cls level (fuel + 1) s m =
      .error (.fault e) (m.without [f] m.thread.depths events) := by
  obtain ⟨events, popped⟩ := popFrame_run (s := s) current
  obtain ⟨e, failed⟩ := leaveDepth_error (s := s) (m := m.without [f] m.thread.depths events) counter
  refine ⟨events, e, ?_⟩
  rw [unwind, bind_of_ok (frame_of_cons current), bind_of_ok library_run]
  simp only [missing]
  rw [bind_of_ok (discard_of_ok popped), bind_of_error failed]

theorem unwind_empty (fuel : Nat) (empty : m.thread.frames = []) :
    unwind host exception cls level (fuel + 1) s m = .error (.fault .noActiveFrame) m := by
  rw [unwind, bind_of_error (frame_of_nil empty)]

/-- What the search comes to at the current frame, with some budget left for the frames below. -/
inductive Searched (fuel : Nat) (s : Settings) (m : Machine) :
    EStateM.Result Stop Machine (Option RunOutcome) → Prop
  /-- It stops before a frame was left. -/
  | stops {m' : Machine} {e : Fault} : m.SameFrames m' →
      Searched fuel s m (.error (.fault e) m')
  /-- The frame has a handler. -/
  | caught {f : Frame} {rest : List Frame} {h : Handler} {events : Array Event} :
      m.thread.frames = f :: rest → h.handlerPc.toNat < f.codeLength →
      Searched fuel s m
        (.ok none ((m.without [] m.thread.depths events).caught f rest h exception))
  /-- The frame is left although the run does not have it. -/
  | uncounted {f : Frame} {rest : List Frame} {events : Array Event} {e : Fault} :
      m.thread.frames = f :: rest → (m.thread.depths = [] ∨ ∃ outer, m.thread.depths = 0 :: outer) →
      Searched fuel s m (.error (.fault e) (m.without [f] m.thread.depths events))
  /-- The last frame of the run is left. -/
  | last {f : Frame} {rest : List Frame} {outer : List Nat} {events : Array Event} :
      m.thread.frames = f :: rest → m.thread.depths = 1 :: outer →
      Searched fuel s m ((if level = 1 then some <$> deliverUncaught host exception
        else pure (some (.exceptionPending exception)) : Exec (Option RunOutcome)) s
          (m.without [f] (0 :: outer) events))
  /-- Another frame is left, and the search goes on. -/
  | left {f : Frame} {rest : List Frame} {n : Nat} {outer : List Nat} {events : Array Event} :
      m.thread.frames = f :: rest → m.thread.depths = (n + 2) :: outer →
      Searched fuel s m
        (unwind host exception cls level fuel s (m.without [f] ((n + 1) :: outer) events))

theorem unwind_cases (fuel : Nat) (m : Machine) :
    Searched host exception cls level fuel s m
      (unwind host exception cls level (fuel + 1) s m) := by
  cases current : m.thread.frames with
  | nil =>
      rw [unwind_empty host exception cls level fuel current]
      exact .stops (Std.Refl.refl m)
  | cons f rest =>
      cases found : m.world.library.findHandler f.method f.instructionPc cls with
      | some row =>
          by_cases inside : row.handlerPc.toNat < f.codeLength
          · obtain ⟨events, run⟩ :=
              unwind_caught (s := s) host exception cls level fuel current found inside
            rw [run]
            exact .caught current inside
          · obtain ⟨mid, e, sameFrames, run⟩ :=
              unwind_outside (s := s) host exception cls level fuel current found inside
            rw [run]
            exact .stops sameFrames
      | none =>
          have uncounted (counter : m.thread.depths = [] ∨
              ∃ outer, m.thread.depths = 0 :: outer) :
              Searched host exception cls level fuel s m
                (unwind host exception cls level (fuel + 1) s m) := by
            obtain ⟨events, e, run⟩ :=
              unwind_uncounted (s := s) host exception cls level fuel current counter found
            rw [run]
            exact .uncounted current counter
          cases counter : m.thread.depths with
          | nil => exact uncounted (.inl counter)
          | cons d outer =>
              cases d with
              | zero => exact uncounted (.inr ⟨outer, counter⟩)
              | succ n =>
                  obtain ⟨events, run⟩ :=
                    unwind_left (s := s) host exception cls level fuel current counter found
                  rw [run]
                  cases n with
                  | zero => exact .last current counter
                  | succ n => exact .left current counter

theorem unwind_ok {o : Option RunOutcome} {m' : Machine} : ∀ {fuel : Nat} {m : Machine},
    unwind host exception cls level fuel s m = .ok o m' →
      Unwound host exception cls level s m o m' := by
  intro fuel
  induction fuel with
  | zero => exact fun h => nomatch h
  | succ fuel ih =>
      intro m h
      have searched := unwind_cases (s := s) host exception cls level fuel m
      generalize unwind host exception cls level (fuel + 1) s m = result at h searched
      cases searched with
      | stops => cases h
      | caught current inside =>
          cases h
          exact .caught current inside
      | uncounted => cases h
      | last current counter =>
          split at h
          next outermost =>
            obtain ⟨o', delivered, rfl⟩ := map_eq_ok h
            exact .delivered current counter outermost delivered
          next nested =>
            cases h
            exact .ended current counter nested
      | left current counter => exact .left current counter (ih h)

theorem unwind_error {stop : Stop} {m' : Machine} : ∀ {fuel : Nat} {m : Machine},
    unwind host exception cls level fuel s m = .error stop m' →
      UnwindStop host exception s stop m m' := by
  intro fuel
  induction fuel with
  | zero =>
      intro m h
      cases h
      exact .here (Std.Refl.refl _)
  | succ fuel ih =>
      intro m h
      have searched := unwind_cases (s := s) host exception cls level fuel m
      generalize unwind host exception cls level (fuel + 1) s m = result at h searched
      cases searched with
      | stops sameFrames =>
          cases h
          exact .here sameFrames
      | caught => cases h
      | uncounted current counter =>
          cases h
          exact .uncounted current counter
      | last current counter =>
          split at h
          · exact .delivering current counter (map_eq_error h)
          · cases h
      | left current counter => exact .left current counter (ih h)

end Search

end Exec

/-! ## Rows of exception tables -/

/-- A row of a frame's method covers the instruction that runs, and takes exceptions of a class:
those of every class when it names none, else those of a class below the one that it names. -/
def Frame.Catches (lib : Library) (f : Frame) (cls : String) (h : Handler) : Prop :=
  h.covers f.instructionPc = true ∧ ∀ name, h.catchType = some name → lib.Ancestor cls name

/-- The first row of a frame's method, in declaration order, that catches exceptions of a class. -/
def Frame.Selects (lib : Library) (f : Frame) (cls : String) (h : Handler) : Prop :=
  ∃ before after, f.method.handlers = before ++ h :: after ∧ f.Catches lib cls h ∧
    ∀ other ∈ before, ¬ f.Catches lib cls other

theorem Frame.catches_iff {lib : Library} {f : Frame} {cls : String} {h : Handler} :
    f.Catches lib cls h ↔
      (h.covers f.instructionPc && h.catchType.all (lib.isSubclass cls)) = true := by
  rw [Catches, Bool.and_eq_true, Option.all_eq_true]
  simp only [lib.isSubclass_iff_ancestor]

theorem Library.findHandler_eq_some {lib : Library} {f : Frame} {cls : String} {h : Handler}
    (selected : f.Selects lib cls h) :
    lib.findHandler f.method f.instructionPc cls = some h := by
  obtain ⟨before, after, rows, catches, first⟩ := selected
  rw [findHandler, List.find?_eq_some_iff_append]
  refine ⟨Frame.catches_iff.mp catches, before, after, rows, fun other hother => ?_⟩
  have passes := first other hother
  rw [Frame.catches_iff, Bool.not_eq_true] at passes
  rw [passes, Bool.not_false]

theorem Library.findHandler_eq_none {lib : Library} {f : Frame} {cls : String}
    (uncaught : ∀ h ∈ f.method.handlers, ¬ f.Catches lib cls h) :
    lib.findHandler f.method f.instructionPc cls = none := by
  rw [findHandler, List.find?_eq_none]
  intro h hh
  have passes := uncaught h hh
  rwa [Frame.catches_iff] at passes

/-! ## Where an exception goes -/

namespace Exec

variable {s : Settings} {m : Machine} {host : Host} {exception : Handle} {level n : Nat}
  {outer : List Nat} {cls : LoadedClass}

theorem handleException_run (known : m.world.heap.classOf exception = .ok cls) :
    handleException host exception level s m =
      unwind host exception cls.name level (m.thread.frames.length + 1) s m := by
  rw [handleException, bind_of_ok heap_run, known]
  have found : (ofExcept (.ok cls) : Exec LoadedClass) s m = .ok cls m := rfl
  rw [bind_of_ok found, bind_of_ok thread_run]

/-- The operands below a frame stay when the frames above it are left. -/
theorem take_roof_take {above below : List Frame} {f : Frame} (wf : m.thread.WellFormed)
    (current : m.frames = above ++ f :: below) :
    (m.operands.take (Frame.roof m.operands.length above)).take f.stackBase =
      m.operands.take f.stackBase := by
  have ordered := wf.ordered
  unfold Machine.frames at current
  rw [current, List.pairwise_append] at ordered
  have reached := wf.reached f (by rw [current]; simp)
  have lower : f.stackBase ≤ Frame.roof m.operands.length above :=
    Frame.le_roof above (fun g hg => ordered.2.2 g hg f List.mem_cons_self)
      (by rwa [Array.length_toList])
  rw [List.take_take, Nat.min_eq_left lower]

/-- An exception that a frame of the run catches. -/
theorem handleException_caught {above below : List Frame} {f : Frame} {row : Handler}
    (counter : m.thread.depths = n :: outer) (known : m.world.heap.classOf exception = .ok cls)
    (current : m.frames = above ++ f :: below) (owned : above.length < n)
    (uncaught : ∀ g ∈ above, ∀ h ∈ g.method.handlers, ¬ g.Catches m.world.library cls.name h)
    (selected : f.Selects m.world.library cls.name row)
    (inside : row.handlerPc.toNat < f.codeLength) :
    ∃ events, handleException host exception level s m =
      .ok none ((m.without above ((n - above.length) :: outer) events).caught f below row
        exception) := by
  have length : above.length < m.thread.frames.length + 1 := by
    have total : m.thread.frames.length = (above ++ f :: below).length :=
      congrArg List.length current
    rw [List.length_append] at total
    omega
  rw [handleException_run known]
  exact unwind_to_handler host exception cls.name level above current counter owned length
    (fun g hg => Library.findHandler_eq_none (uncaught g hg)) (Library.findHandler_eq_some selected)
    inside

theorem without_caught_operands (above below : List Frame) (f : Frame) (row : Handler)
    (depths : List Nat) (events : Array Event) :
    ((m.without above depths events).caught f below row exception).operands =
      caughtOperands (m.operands.take (Frame.roof m.operands.length above)) f row exception := by
  simp only [Machine.operands, Machine.caught, Machine.without, Operand.toList_take,
    Array.length_toList]

/-- An exception goes to the innermost handler among the frames that the run owns.

When a frame of the run has a row that catches it, the topmost such frame goes on at the first such
row: exactly the frames above it are gone and their monitors exited, the operands that it has kept
are a prefix of those that it had, the exception lies on top of them and is no longer pending, the
counter is the number of frames that the run still has, and nothing has changed below.  When no
frame of the run has such a row, exactly the frames of the run are gone and the counter is zero; in
a run inside another one the exception stays pending and is the outcome, and in the outermost run
it is delivered to the thread's group. -/
theorem handleException_innermost (owned : 1 ≤ n) (counter : m.thread.depths = n :: outer)
    (known : m.world.heap.classOf exception = .ok cls) :
    (∀ above f below row, m.frames = above ++ f :: below → above.length < n →
      (∀ g ∈ above, ∀ h ∈ g.method.handlers, ¬ g.Catches m.world.library cls.name h) →
      f.Selects m.world.library cls.name row → row.handlerPc.toNat < f.codeLength →
      ∃ m' kept, handleException host exception level s m = .ok none m' ∧
        (∃ events, m'.world = { m.world with
          monitors := m.world.monitors.exitAll m.thread.id (above.flatMap Frame.monitors)
          events }) ∧
        m'.thread = { m.thread with
          frames := { f with pc := row.handlerPc.toNat } :: below
          operands := m'.thread.operands
          depths := (n - above.length) :: outer
          pending := none } ∧
        kept <+: (m.operands.take (Frame.roof m.operands.length above)).drop f.stackBase ∧
        m'.operands = (m.operands.take (Frame.roof m.operands.length above)).take f.stackBase ++
          kept ++ [⟨.object exception, f.instructionPc⟩] ∧
        (m.thread.WellFormed → m'.operands.take f.stackBase = m.operands.take f.stackBase)) ∧
    (∀ own below, m.frames = own ++ below → own.length = n →
      (∀ g ∈ own, ∀ h ∈ g.method.handlers, ¬ g.Catches m.world.library cls.name h) →
      ∃ left : Machine,
        (∃ events, left.world = { m.world with
          monitors := m.world.monitors.exitAll m.thread.id (own.flatMap Frame.monitors)
          events }) ∧
        left.thread = { m.thread with
          frames := below, operands := left.thread.operands, depths := 0 :: outer } ∧
        left.operands <+: m.operands ∧
        (m.thread.WellFormed → ∀ g ∈ own.getLast?, left.operands = m.operands.take g.stackBase) ∧
        (level ≠ 1 →
          handleException host exception level s m = .ok (some (.exceptionPending exception)) left) ∧
        (level = 1 →
          handleException host exception level s m =
            (some <$> deliverUncaught host exception : Exec _) s left)) := by
  refine ⟨fun above f below row current owned uncaught selected inside => ?_,
    fun own below current all none => ?_⟩
  · have run : ∃ events, handleException host exception level s m =
        .ok none ((m.without above ((n - above.length) :: outer) events).caught f below row
          exception) := handleException_caught counter known current owned uncaught selected inside
    obtain ⟨events, run⟩ := run
    let cut := m.operands.take (Frame.roof m.operands.length above)
    let kept := (cut.drop f.stackBase).rdropWhile (fun o => row.startPc.toNat ≤ o.pushedAt)
    have operands : ((m.without above ((n - above.length) :: outer) events).caught f below row
        exception).operands = cut.take f.stackBase ++ kept ++
          [⟨.object exception, f.instructionPc⟩] := without_caught_operands _ _ _ _ _ _
    refine ⟨_, kept, run, ⟨events, rfl⟩, rfl, List.rdropWhile_prefix _ _, operands, fun wf => ?_⟩
    have reached := wf.reached f (by
      rw [show m.thread.frames = above ++ f :: below from current]
      simp)
    have below := take_roof_take wf current
    have size : f.stackBase = (cut.take f.stackBase).length := by
      rw [below, List.length_take, Array.length_toList]
      omega
    rw [operands, List.append_assoc, List.take_append_of_le_length (Nat.le_of_eq size),
      List.take_take, Nat.min_self]
    exact below
  · rw [handleException_run known]
    have nonempty : own ≠ [] := by
      intro empty
      rw [empty, List.length_nil] at all
      omega
    have length : own.length < m.thread.frames.length + 1 + 1 := by
      have total : m.thread.frames.length = (own ++ below).length := congrArg List.length current
      rw [List.length_append] at total
      omega
    obtain ⟨events, run⟩ := unwind_to_end (s := s) host exception cls.name level own nonempty current
      (all ▸ counter) length fun g hg => Library.findHandler_eq_none (none g hg)
    have frames : m.thread.frames.drop own.length = below := by
      rw [show m.thread.frames = own ++ below from current, List.drop_left]
    have operands : (m.without own (0 :: outer) events).operands =
        m.operands.take (Frame.roof m.operands.length own) := by
      simp only [Machine.operands, Machine.without, Operand.toList_take, Array.length_toList]
    refine ⟨m.without own (0 :: outer) events, ⟨events, rfl⟩, ?_, ?_, fun wf g hg => ?_, ?_, ?_⟩
    · simp only [Machine.without, frames]
    · rw [operands]
      exact List.take_prefix _ _
    · obtain ⟨upper, split⟩ := List.getLast?_eq_some_iff.mp hg
      have ordered := wf.ordered
      rw [show m.thread.frames = own ++ below from current, split, List.append_assoc,
        List.pairwise_append] at ordered
      have reached := wf.reached g (by
        rw [show m.thread.frames = own ++ below from current, split]
        simp)
      rw [operands, split, Frame.roof_concat (fun k hk => ordered.2.2 k hk g (by simp))
        (by rwa [Array.length_toList])]
    · intro nested
      rw [run, if_neg nested]
      rfl
    · intro outermost
      rw [run, if_pos outermost]

end Exec

/-! ## A small machine -/

namespace Sample

/-- A static method without arguments and without a result. -/
def method (code : List UInt8) (handlers : List Handler) : MethodDecl where
  name := "m"
  descriptor := "()V"
  flags := ⟨0x0009⟩
  className := "A"
  type := ⟨[], .void⟩
  typed := by decide
  maxStack := 4
  maxLocals := 0
  code := ⟨code.toArray⟩
  handlers

/-- A class, which is also that of the exceptions. -/
def cls : LoadedClass where
  name := "A"
  superName := none
  interfaces := []
  flags := ⟨0x0021⟩
  pool := Pool.blank
  methods := []
  fields := []
  id := 0

/-- A frame in front of its first instruction. -/
def frame (code : List UInt8) (handlers : List Handler) (stackBase : Nat) : Frame :=
  { cls, method := method code handlers, locals := #[], stackBase }

/-- A machine with an exception on the heap, which is pending. -/
def machine (frames : List Frame) (operands : Array Operand) (depths : List Nat) : Machine where
  world := { heap := { cells := #[some ⟨0, .object cls []⟩], live := 1, made := 1 } }
  thread :=
    { id := 0, frames, operands, depths, deepest := frames.length, pending := some ⟨0⟩ }

/-- The class of the exception is known. -/
theorem machine_classOf (frames : List Frame) (operands : Array Operand) (depths : List Nat) :
    (machine frames operands depths).world.heap.classOf ⟨0⟩ = .ok cls := rfl

/-- A row that catches every exception of the first instruction. -/
def row : Handler := ⟨0, 1, 2, none⟩

/-- A frame whose method catches the exceptions of its first instruction. -/
def catcher : Frame := frame [0x00, 0xb1, 0x57, 0xb1] [row] 0

/-- A machine whose current frame has an operand. -/
def caller : Machine :=
  ⟨{}, { id := 0, frames := [catcher], operands := #[⟨.int 5, 3⟩], deepest := 1 }⟩

theorem caller_wellFormed : caller.thread.WellFormed :=
  ⟨List.pairwise_singleton _ _, by simp [caller, catcher, frame], by simp [caller, catcher, frame],
    Nat.le_refl 1⟩

end Sample

/-- The upper one of two frames has no row, and the lower one goes on with the exception on top of
its operands. -/
theorem Exec.handleException_innermost_second :
    ∃ m', handleException ⟨Engine.reentry [] 0, []⟩ ⟨0⟩ 2 {} (Sample.machine
        [Sample.frame [0xb1] [] 1, Sample.catcher] #[⟨.int 5, 3⟩] [2]) = .ok none m' ∧
      m'.thread.depths = [1] ∧ m'.thread.frames.map Frame.pc = [2] := by
  have uncaught : ∀ g ∈ [Sample.frame [0xb1] [] 1], ∀ h ∈ g.method.handlers,
      ¬ g.Catches {} Sample.cls.name h := by
    simp [Sample.frame, Sample.method]
  obtain ⟨m', -, run, -, thread, -⟩ :=
    (handleException_innermost (Nat.le_succ 1) rfl (Sample.machine_classOf _ _ _)).1
      [Sample.frame [0xb1] [] 1] Sample.catcher [] Sample.row rfl (by decide) uncaught
      ⟨[], [], rfl, ⟨rfl, by simp [Sample.row]⟩, by simp⟩ (by decide)
  exact ⟨m', run, by rw [thread]; rfl, by rw [thread]; rfl⟩

end JavaMachine
