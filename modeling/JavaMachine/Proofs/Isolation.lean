import JavaMachine.Proofs.Balance

/-!
# The isolation of frames

All frames of a thread share one operand stack, and an instruction is performed by the current
frame.  Whatever was done to a thread before, its frames begin on the stack in their order, and the
next byte of each is not behind the end of its code.  From there an instruction leaves alone what
is below the current frame: the other frames with their local variables, their addresses and their
monitors, and the operands that belong to them.

A thread is used by its host as well, which may enter and leave frames and work on the operands and
local variables between instructions as it likes.  `Operation` lists what can be done, and
`Reachable` are the machines that any sequence of operations comes to.
-/

namespace JavaMachine

/-! ## Operations -/

/-- What can be done to a thread. -/
inductive Operation where
  /-- Enters a frame for a method, whose arguments are on the operand stack. -/
  | enter (cls : LoadedClass) (decl : MethodDecl)
  /-- Leaves the current frame. -/
  | leave
  /-- Pushes an operand. -/
  | push (v : Value)
  /-- Puts back an operand with the address that it was pushed at. -/
  | put (o : Operand)
  /-- Pops an operand. -/
  | pop
  /-- Drops the operands that were pushed at an address or behind it. -/
  | rewind (pc : Nat)
  /-- Stores into a local variable. -/
  | store (slot : Nat) (v : Value)
  /-- Moves the current frame to an address. -/
  | jump (target : Nat)
  /-- Enters a monitor, which the current frame then holds. -/
  | hold (k : MonitorKey)
  /-- Exits a monitor that the current frame holds. -/
  | release (k : MonitorKey)
  /-- Performs the next instruction, within a budget. -/
  | instruction (budget : Nat)
  /-- Performs the next instruction of a run, and handles the exception that it leaves pending. -/
  | turn (budget level : Nat)
  /-- Calls a method. -/
  | call (budget : Nat) (cls : LoadedClass) (decl : MethodDecl) (args : List Value)

namespace Operation

open Exec Engine

/-- Performs an operation. -/
def perform (natives : Natives) : Operation → Exec Unit
  | enter cls decl => pushFrame cls decl
  | leave => discard popFrame
  | push v => Exec.push v
  | put o => pushOperand o
  | pop => discard Exec.pop
  | rewind pc => discard (Exec.rewind pc)
  | store slot v => moveFrame (·.setLocal slot v)
  | jump target => moveFrame (·.jump target)
  | hold k => pushMonitor k
  | release k => discard (popMonitor k)
  | instruction budget => discard (step (host natives budget))
  | turn budget level => discard (Exec.turn (host natives budget) level)
  | call budget cls decl args => discard (Engine.call natives budget cls decl args)

end Operation

/-- The machines that a sequence of operations comes to, from a thread without frames on.  The
world, the counters and the pending exception may change between two operations. -/
inductive Reachable (natives : Natives) : Machine → Prop
  | fresh (world : World) (id : ThreadId) : Reachable natives ⟨world, { id }⟩
  | operation {m : Machine} (s : Settings) (op : Operation) :
      Reachable natives m → Reachable natives ((op.perform natives).after s m)
  | beside {m : Machine} (world : World) (depths : List Nat) (level : Nat)
      (pending : Option Handle) : Reachable natives m →
      Reachable natives ⟨world, { m.thread with depths, level, pending }⟩

/-! ## Frames on the operand stack -/

namespace Exec

variable {s : Settings} {m m' : Machine}

theorem pushFrame_upkeep (cls : LoadedClass) (decl : MethodDecl) :
    m.Upkeep (m.frames.length + 1) ((pushFrame cls decl).after s m) := by
  cases run : pushFrame cls decl s m with
  | ok _ m' =>
      rw [after_of_ok run]
      obtain ⟨f, mid, sameFrames, -, pushes, -⟩ := pushFrame_ok run
      have room : mid.frames.length < m.frames.length + 1 := by
        rw [sameFrames.frames_eq]
        exact Nat.lt_succ_self _
      exact IsTrans.trans _ _ _ sameFrames.toWithin.upkeep (Machine.pushes_upkeep pushes room)
  | error stop m' =>
      rw [after_of_error run]
      exact (pushFrame_error run).toWithin.upkeep

theorem popFrame_upkeep {cap : Nat} : m.Upkeep cap (popFrame.after s m) := by
  cases current : m.thread.frames with
  | nil =>
      rw [popFrame, after_of_error (bind_of_error (frame_of_nil current))]
      exact Std.Refl.refl m
  | cons f rest =>
      obtain ⟨events, run⟩ := popFrame_run (s := s) current
      rw [after_of_ok run]
      exact Machine.upkeep_without current _ _

theorem after_discard {α : Type} (x : Exec α) : (discard x).after s m = x.after s m := by
  cases run : x s m with
  | ok a m' => rw [after_of_ok run, after_of_ok (discard_of_ok run)]
  | error stop m' => rw [after_of_error run, after_of_error (discard_of_error run)]

/-- Natives that need not pass on faults may go on after any call. -/
theorem attempt_call_along {d : Discipline} {r : Reentry} {cls : LoadedClass} {decl : MethodDecl}
    {args : List Value} (catches : d.passes = false) :
    Along (acts d r) d.Ready (attempt (r.call cls decl args)) fun _ _ => True := by
  refine fun s m ready => ⟨fun result m' h => ⟨.single ?_, trivial⟩, fun stop m' h => ⟨m, .refl, ?_⟩⟩
  · cases called : r.call cls decl args s m with
    | ok i mid =>
        rw [attempt_of_ok called] at h
        cases h
        exact .call ready called
    | error stop mid =>
        cases stop with
        | fault e =>
            rw [attempt_of_fault called] at h
            cases h
            exact .caught catches ready called
        | blocked => rw [attempt_of_stop called (by simp)] at h; cases h
        | exhausted => rw [attempt_of_stop called (by simp)] at h; cases h
  · cases called : r.call cls decl args s m with
    | ok i mid => rw [attempt_of_ok called] at h; cases h
    | error stop' mid =>
        cases stop' with
        | fault e => rw [attempt_of_fault called] at h; cases h
        | blocked =>
            rw [attempt_of_stop called (by simp)] at h
            cases h
            exact .called ready called (Std.Refl.refl _)
        | exhausted =>
            rw [attempt_of_stop called (by simp)] at h
            cases h
            exact .called ready called (Std.Refl.refl _)

end Exec

open Exec Engine

variable {natives : Natives} {m : Machine}

/-- Every operation keeps the thread up, for the number of frames that it needs. -/
theorem Operation.perform_upkeep (free : ∀ n, natives.Keep .free (reentry natives n))
    (s : Settings) (op : Operation) : ∃ cap, m.Upkeep cap ((op.perform natives).after s m) := by
  have ready : Discipline.free.Ready m := fun clear => nomatch clear
  cases op with
  | enter cls decl => exact ⟨_, pushFrame_upkeep cls decl⟩
  | leave =>
      rw [perform, after_discard]
      exact ⟨0, popFrame_upkeep⟩
  | push v => exact ⟨0, Machine.Within.upkeep (push_within v s m)⟩
  | put o =>
      have more : m.thread.operands.size ≤ (m.thread.operands.push o).size := by simp
      exact ⟨0, .of_wellFormed (fun wf =>
        ⟨wf.ordered, fun f hf => Nat.le_trans (wf.reached f hf) more, wf.inside, wf.marked⟩)
        id rfl id id⟩
  | pop => exact ⟨0, Machine.Within.upkeep (pop_keeps.discard s m)⟩
  | rewind pc => exact ⟨0, Machine.Within.upkeep ((rewind_keeps pc).discard s m)⟩
  | store slot v => exact ⟨0, Machine.Within.upkeep (setLocal_within slot v s m)⟩
  | jump target => exact ⟨0, Machine.Within.upkeep (jump_keeps target s m)⟩
  | hold k => exact ⟨0, (pushMonitor_within k s m).upkeep⟩
  | release k => exact ⟨0, ((popMonitor_within k).discard s m).upkeep⟩
  | instruction budget =>
      rw [perform, after_discard]
      exact ⟨_, step_upkeep (free budget) (settles natives budget) (upholds free budget) ready⟩
  | turn budget level =>
      rw [perform, after_discard]
      exact ⟨_, turn_upkeep (free budget) (settles natives budget) (upholds free budget) ready⟩
  | call budget cls decl args =>
      rw [perform, after_discard]
      exact ⟨_, (upholds free budget).call cls decl args s m ready⟩

theorem Reachable.wellFormed (free : ∀ n, natives.Keep .free (reentry natives n))
    (h : Reachable natives m) : m.thread.WellFormed := by
  induction h with
  | fresh world id => exact ⟨List.Pairwise.nil, by simp, by simp, Nat.zero_le _⟩
  | operation s op _ wf =>
      obtain ⟨cap, upkeep⟩ := op.perform_upkeep free s
      exact upkeep.wellFormed wf
  | beside world depths level pending _ wf => exact ⟨wf.ordered, wf.reached, wf.inside, wf.marked⟩

/-! ## One instruction -/

/-- An instruction leaves alone what is below the current frame. -/
theorem step_isolated {d : Discipline} (sound : d.Sound)
    (hn : ∀ n, natives.Keep d (reentry natives n)) {s : Settings} {f : Frame} {rest : List Frame}
    (wf : m.thread.WellFormed) (ready : d.Ready m) (current : m.frames = f :: rest) (n : Nat) :
    rest <:+ ((step (host natives n)).after s m).frames ∧
      ((step (host natives n)).after s m).operands.take f.stackBase =
        m.operands.take f.stackBase := by
  let kept := m.operands.take f.stackBase
  have reached : f.stackBase ≤ m.thread.operands.size :=
    wf.reached f (by rw [show m.thread.frames = f :: rest from current]; exact List.mem_cons_self)
  have length : kept.length = f.stackBase := by
    rw [List.length_take, Array.length_toList]
    exact Nat.min_eq_left reached
  have above : m.Above rest kept [f] := by
    refine ⟨current, fun g hg => ?_, List.take_prefix _ _⟩
    rw [List.mem_singleton.mp hg, length]
  have room : d.slack ≤ [f].length := by
    unfold Discipline.slack
    split <;> simp
  have isolated {m' : Machine} {own : List Frame} (above : m'.Above rest kept own) :
      rest <:+ m'.frames ∧ m'.operands.take f.stackBase = kept := by
    refine ⟨?_, ?_⟩
    · rw [above.frames]
      exact List.suffix_append own rest
    · rw [← length]
      exact (List.prefix_iff_eq_take.mp above.operands).symm
  have hu := upholds hn n
  have hs := spares sound hn n
  have hset := settles natives n
  cases run : step (host natives n) s m with
  | ok flow m' =>
      rw [after_of_ok run]
      cases step_moved sound (hn n) hset hs hu ready wf current room (by simp) run with
      | plain moved => exact isolated (moved.above above (.inl (by simp)))
      | returned _ moved _ _ _ =>
          exact isolated (handed_above (left_above (moved.above above (.inl (by simp))) _ _) _ _)
  | error stop m' =>
      rw [after_of_error run]
      obtain ⟨own, above', -⟩ := stepStop_above sound (hn n) hset hs hu ready wf above room
        (by simp) run
      exact isolated above'

/-! ## A careless native -/

namespace Sample

/-- A native method. -/
def native : MethodDecl := { method [] [] with name := "n", flags := ⟨0x0109⟩ }

/-- A class with the native. -/
def home : LoadedClass :=
  { cls with
    pool := #[.empty, .method ⟨"A", "n", "()V"⟩]
    methods := [native] }

/-- A frame in front of a call of the native, on top of a frame with an operand, while an exception
is pending. -/
def calling : Machine :=
  let below := (pushFrame cls (method [0xb1] [])).after {} ⟨{}, { id := 0 }⟩
  let pushed := (push (.int 5)).after {} below
  let m := (pushFrame home (method [0xb8, 0x00, 0x01, 0xb1] [])).after {} pushed
  { world :=
      { (machine [] #[] []).world with
        library := ⟨[home]⟩
        classStates := #[⟨.initialised, #[]⟩] }
    thread := { m.thread with depths := [2], level := 1, pending := some ⟨0⟩ } }

theorem calling_reachable (natives : Natives) : Reachable natives calling :=
  .beside _ _ _ _ (.operation {} (.enter home (method [0xb8, 0x00, 0x01, 0xb1] []))
    (.operation {} (.push (.int 5)) (.operation {} (.enter cls (method [0xb1] [])) (.fresh {} 0))))

/-- A native that goes on after a call that has failed, and pops an operand. -/
def careless : NativeFn := fun r => do
  discard (attempt (r.call cls (method [0xb1] []) []))
  discard (attempt pop)

theorem careless_keep (r : Reentry) : Natives.Keep [("A.n()V", careless)] .free r := by
  intro signature native found
  obtain ⟨-, rfl⟩ : signature = "A.n()V" ∧ native = careless := by
    simpa using Natives.mem_of_find? found
  refine (attempt_call_along rfl).discard.bind fun _ => ?_
  exact .of_sameFrames pop_keeps.attempt.discard fun _ _ _ _ _ _ => trivial

end Sample

/-! ## Isolation -/

/-- Whatever was done to a thread, its frames begin on the operand stack in their order and are
inside their code, and one more instruction leaves alone what is below the current frame.

The last part asks that no native goes on after a call that has taken a frame of its caller for its
own. -/
theorem Reachable.isolated {d : Discipline} (free : ∀ n, natives.Keep .free (reentry natives n))
    (sound : d.Sound) (hn : ∀ n, natives.Keep d (reentry natives n)) (h : Reachable natives m) :
    (m.frames.Pairwise fun upper lower => lower.stackBase ≤ upper.stackBase) ∧
    (∀ f ∈ m.frames, f.stackBase ≤ m.operands.length ∧ f.pc ≤ f.codeLength) ∧
    ∀ s n f rest, d.Ready m → m.frames = f :: rest →
      rest <:+ ((step (host natives n)).after s m).frames ∧
        ((step (host natives n)).after s m).operands.take f.stackBase =
          m.operands.take f.stackBase := by
  have wf := h.wellFormed free
  refine ⟨wf.ordered, fun f hf => ⟨?_, wf.inside f hf⟩, fun s n f rest ready current => ?_⟩
  · rw [Array.length_toList]
    exact wf.reached f hf
  · exact step_isolated sound hn wf ready current n

/-- The natives that the machine brings along leave the frame below alone. -/
theorem isolated_calling : ∃ f rest, Sample.calling.frames = f :: rest ∧
    rest <:+ ((step (host coreNatives 4)).after {} Sample.calling).frames ∧
    ((step (host coreNatives 4)).after {} Sample.calling).operands.take f.stackBase =
      Sample.calling.operands.take f.stackBase := by
  obtain ⟨-, -, isolated⟩ := Reachable.isolated (d := .passing) (fun _ => coreNatives_keep .free _)
    (.inr rfl) (fun _ => coreNatives_keep .passing _) (Sample.calling_reachable coreNatives)
  exact ⟨_, _, rfl, isolated {} 4 _ _ (fun clear => nomatch clear) rfl⟩

/-- A native that is not of this kind may take the operand of the frame below. -/
theorem step_unisolated :
    let natives := [("A.n()V", Sample.careless)]
    (∀ n, Natives.Keep natives .free (reentry natives n)) ∧
    Reachable natives Sample.calling ∧
    ∃ f rest, Sample.calling.frames = f :: rest ∧
      ((step (host natives 4)).after {} Sample.calling).operands.take f.stackBase ≠
        Sample.calling.operands.take f.stackBase := by
  refine ⟨fun n => Sample.careless_keep _, Sample.calling_reachable _, _, _, rfl, fun same => ?_⟩
  have length := congrArg List.length same
  revert length
  decide +kernel

end JavaMachine
