import JavaMachine.Frame
import JavaMachine.Pause

/-!
# Threads

A thread owns its frames, the operand stack that they share, one depth counter for every run that
is in progress, and the exception that is pending.  Every operand remembers the address of the
instruction that pushed it, so that a handler can drop what the region in front of it pushed.  An
operation on operands sees only those of the current frame; without a frame it sees all.
-/

namespace JavaMachine

/-- An operand and the address of the instruction that pushed it. -/
structure Operand where
  /-- The value. -/
  value : Value
  /-- The address. -/
  pushedAt : Nat

/-- A thread. -/
structure Thread where
  /-- The identity, which monitors and class initialisations know. -/
  id : ThreadId
  /-- The frames, the current one first. -/
  frames : List Frame := []
  /-- The operands of all frames, the top one last. -/
  operands : Array Operand := #[]
  /-- The number of frames that each run in progress has to leave, the innermost run first. -/
  depths : List Nat := []
  /-- The number of runs in progress. -/
  level : Nat := 0
  /-- The exception that is pending. -/
  pending : Option Handle := none
  /-- The thread object, if the thread has one. -/
  threadObject : Option Handle := none
  /-- The token by which the thread is paused. -/
  token : TokenId := 0
  /-- The number of instructions that were started. -/
  executed : Nat := 0
  /-- The largest number of frames that the thread has had at once.  Nothing depends on it: it
  keeps for the end of a computation what was the case on the way. -/
  deepest : Nat := 0
  /-- Whether the last frame of a run was left by a return without a value although its method has
  one.  Nothing depends on it either. -/
  bare : Bool := false
  /-- The number of monitors that were exited by an instruction whose frame had not entered them.
  Nothing depends on it. -/
  strays : Nat := 0
  /-- The number of instructions that were started while the machine was halted.  Nothing depends on
  it. -/
  late : Nat := 0
  /-- The number of return addresses that were handed to another frame, as an argument or as a
  result.  Nothing depends on it. -/
  leaks : Nat := 0

namespace Thread

/-! ## Frames -/

/-- The current frame. -/
def frame (t : Thread) : Except Fault Frame :=
  match t.frames with
  | f :: _ => .ok f
  | [] => .error .noActiveFrame

/-- Replaces the current frame. -/
def setFrame (t : Thread) (f : Frame) : Thread := { t with frames := f :: t.frames.tail }

/-- Enters a frame. -/
def pushFrame (t : Thread) (f : Frame) : Thread :=
  { t with
    frames := f :: t.frames
    deepest := max t.deepest (t.frames.length + 1)
    leaks := t.leaks + f.locals.countP Value.isReturnAddress }

/-- The number of operands below those of the current frame. -/
def stackBase (t : Thread) : Nat :=
  match t.frames with
  | f :: _ => f.stackBase
  | [] => 0

/-- The address of the current instruction, zero without a frame. -/
def instructionPc (t : Thread) : Nat :=
  match t.frames with
  | f :: _ => f.instructionPc
  | [] => 0

/-! ## Operands -/

/-- The number of operands of the current frame. -/
def operandDepth (t : Thread) : Nat := t.operands.size - t.stackBase

/-- Pushes an operand as it is. -/
def pushOperand (t : Thread) (o : Operand) : Thread := { t with operands := t.operands.push o }

/-- Pushes a value from the current instruction. -/
def push (t : Thread) (v : Value) : Thread := t.pushOperand ⟨v, t.instructionPc⟩

/-- Pushes a value that comes from outside the current frame. -/
def hand (t : Thread) (v : Value) : Thread :=
  { t.push v with leaks := t.leaks + if v.isReturnAddress then 1 else 0 }

/-- Pops an operand of the current frame. -/
def popOperand (t : Thread) : Except Fault (Operand × Thread) :=
  if t.operandDepth = 0 then .error .stackUnderflow
  else
    match t.operands.back? with
    | some o => .ok (o, { t with operands := t.operands.pop })
    | none => .error .stackUnderflow

/-- The `n`-th value from the top, the top one being the first. -/
def peek (t : Thread) (n : Nat) : Except Fault Value :=
  if n = 0 ∨ t.operandDepth < n then .error .stackUnderflow
  else
    match t.operands[t.operands.size - n]? with
    | some o => .ok o.value
    | none => .error .stackUnderflow

/-- The operands of the current frame, the top one last. -/
def frameOperands (t : Thread) : List Operand := t.operands.toList.drop t.stackBase

/-- The number of operands of the current frame, counted from the top, that were pushed at an
address or behind it. -/
def countFrom (t : Thread) (pc : Nat) : Nat :=
  (t.frameOperands.reverse.takeWhile (pc ≤ ·.pushedAt)).length

/-- Drops operands so that so many are left on the whole stack. -/
def truncate (t : Thread) (size : Nat) : Thread := { t with operands := t.operands.take size }

/-! ## Instructions -/

/-- Counts an instruction, in a machine that is halted or not. -/
def tick (t : Thread) (halted : Bool) : Thread :=
  { t with executed := t.executed + 1, late := t.late + if halted then 1 else 0 }

/-! ## Depth counters -/

/-- The counter of the innermost run, zero without a run. -/
def depth (t : Thread) : Nat := t.depths.headD 0

/-- Opens a counter. -/
def openDepth (t : Thread) : Thread := { t with depths := 0 :: t.depths }

/-- Closes the innermost counter. -/
def closeDepth (t : Thread) : Except Fault (Nat × Thread) :=
  match t.depths with
  | d :: rest => .ok (d, { t with depths := rest })
  | [] => .error .depthStackEmpty

/-- Counts a frame that was entered. -/
def deepen (t : Thread) : Except Fault (Nat × Thread) :=
  match t.depths with
  | d :: rest => .ok (d + 1, { t with depths := (d + 1) :: rest })
  | [] => .error .depthStackEmpty

/-- Counts a frame that was left. -/
def shallow (t : Thread) : Except Fault (Nat × Thread) :=
  match t.depths with
  | (d + 1) :: rest => .ok (d, { t with depths := d :: rest })
  | 0 :: _ => .error .depthUnderflow
  | [] => .error .depthStackEmpty

end Thread

end JavaMachine
