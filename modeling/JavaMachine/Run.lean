import JavaMachine.Instruction.Step

/-!
# Running

A run performs instructions until its frames have returned, an exception leaves them, or the
machine is halted.  Between two instructions it honours a pause, counts the instruction, and lets
the collector run.

`call` and `run` are the engine.  They re-enter each other through natives, class initialisers and
the delivery of exceptions, so they take a budget: it bounds the nesting of calls and the number
of instructions of each run, and a computation that stops because its budget is used up has not
come to a result.
-/

namespace JavaMachine.Exec

/-! ## Between two instructions -/

/-- Honours a pause that is asked for: the thread pauses, and the controllers that wait let it go
on or halt the machine.  A paused thread that nobody waits for stays where it is.  The answer tells
whether the thread was paused. -/
def checkpoint : Exec Bool := do
  let id := (← thread).token
  let token ← pauseToken id
  match token.phase.confirm? with
  | none => return false
  | some held =>
      modifyToken id ({ · with phase := held })
      report .threadPaused
      unless ← isHalted do
        if token.due.isEmpty then throw .blocked
        settleToken id
      if (← pauseToken id).phase = held then report .haltedWhilePaused
      else report .threadResumed
      return true

/-- Asks the collector whether it must run.  The machine may be set to halt at this question. -/
def mustCollect : Exec Bool := do
  modifyWorld fun w => { w with asked := w.asked + 1 }
  let w ← world
  if w.haltAt = some w.asked then halt
  return w.collector.mustCollect

/-- Counts an instruction and lets the collector run, by the interval or by its own will. -/
def safepoint : Exec Unit := do
  let halted ← isHalted
  modifyThread (·.tick halted)
  let executed := (← thread).executed
  let interval := (← read).config.collectInterval
  let periodic := decide (0 < interval) && executed % interval == 0
  let due ← if periodic then pure true else mustCollect
  if due then
    report (.collecting executed periodic)
    modifyWorld fun w => { w with collector := w.collector.collect }

/-! ## Exceptions -/

/-- Looks for a handler of an exception in the frames of the run, the current one first, and
leaves the frames without one.  The answer is the outcome of the run when all its frames are
left.  The number of frames is enough budget. -/
def unwind (host : Host) (exception : Handle) (exceptionClass : String) (level : Nat) :
    Nat → Exec (Option RunOutcome)
  | 0 => throw .exhausted
  | n + 1 => do
      let f ← frame
      match (← library).findHandler f.method f.instructionPc exceptionClass with
      | some h =>
          report (.caught exceptionClass f.method.signature f.instructionPc h.handlerPc.toNat)
          catchException h exception
          return none
      | none =>
          discard popFrame
          if (← leaveDepth) = 0 then
            if level = 1 then return some (← deliverUncaught host exception)
            else return some (.exceptionPending exception)
          else unwind host exception exceptionClass level n

/-- Goes on at the innermost handler of an exception, or ends the run. -/
def handleException (host : Host) (exception : Handle) (level : Nat) :
    Exec (Option RunOutcome) := do
  let cls ← ofExcept ((← heap).classOf exception)
  unwind host exception cls.name level ((← thread).frames.length + 1)

/-! ## The loop -/

/-- Whether a run ends in front of the next instruction: the machine is halted, or it gets halted
while the thread is paused. -/
def stopsHere : Exec Bool := do
  if ← isHalted then return true
  if ← checkpoint then isHalted else return false

/-- One turn of a run: an instruction, and what becomes of an exception that it leaves pending.
The answer is the outcome of the run when it ends. -/
def turn (host : Host) (level : Nat) : Exec (Option RunOutcome) := do
  if ← stopsHere then return some .halted
  safepoint
  let flow ← step host
  match (← thread).pending with
  | some exception => handleException host exception level
  | none => return if flow = .leave then some .completed else none

/-- Performs instructions until the run ends, at most so many. -/
def loop (host : Host) (level : Nat) : Nat → Exec RunOutcome
  | 0 => throw .exhausted
  | n + 1 => do
      match ← turn host level with
      | some outcome => return outcome
      | none => loop host level n

/-- Runs the frames of the thread as one more run in progress. -/
def runLoop (host : Host) (budget : Nat) : Exec RunOutcome := do
  modifyThread fun t => { t with level := t.level + 1 }
  let outcome ← attempt (loop host (← thread).level budget)
  modifyThread fun t => { t with level := t.level - 1 }
  ofExcept outcome

end JavaMachine.Exec

namespace JavaMachine.Engine

open Exec

mutual

/-- Calls a method of a class with arguments, receiver first. -/
def call (natives : Natives) : Nat → LoadedClass → MethodDecl → List Value → Exec Invocation
  | 0, _, _, _ => throw .exhausted
  | n + 1, cls, m, args => execute ⟨⟨call natives n, run natives n⟩, natives⟩ cls m args

/-- Goes on with the frames of the thread. -/
def run (natives : Natives) : Nat → Exec RunOutcome
  | 0 => throw .exhausted
  | n + 1 => runLoop ⟨⟨call natives n, run natives n⟩, natives⟩ n

end

/-- The ways into a machine with natives, within a budget. -/
def reentry (natives : Natives) (budget : Nat) : Reentry := ⟨call natives budget, run natives budget⟩

end JavaMachine.Engine
