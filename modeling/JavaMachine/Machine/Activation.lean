import JavaMachine.Machine.Memory

/-!
# Activations

Entering and leaving a frame, the monitors that a frame holds, and what happens to a frame that
catches an exception.  A frame that is left exits its monitors in the reverse order in which it
entered them and drops its operands, however it is left.
-/

namespace JavaMachine.Exec

/-! ## Monitors -/

/-- The monitor of a heap entry. -/
def entryMonitor (h : Handle) : Exec MonitorKey := do
  return .entry (← ofExcept ((← heap).serialOf h))

/-- Enters a monitor, or waits for its owner. -/
def enterMonitor (k : MonitorKey) : Exec Unit := do
  let m ← get
  match (m.world.monitors.get k).enter? m.thread.id with
  | some monitor => modifyWorld fun w => { w with monitors := w.monitors.set k monitor }
  | none => throw .blocked

/-- Gives up one level of a monitor.  The answer tells whether the thread owned it. -/
def exitMonitor (k : MonitorKey) : Exec Bool := do
  let m ← get
  let (owned, monitor) := (m.world.monitors.get k).exit m.thread.id
  modifyWorld fun w => { w with monitors := w.monitors.set k monitor }
  return owned

/-- Enters a monitor and leaves it to the current frame to exit it. -/
def pushMonitor (k : MonitorKey) : Exec Unit := do
  let _ ← frame
  enterMonitor k
  moveFrame fun f => .ok { f with monitors := k :: f.monitors }

/-- Exits a monitor and strikes its last entry from the current frame's list. -/
def popMonitor (k : MonitorKey) : Exec Bool := do
  moveFrame fun f => .ok { f with monitors := f.monitors.erase k }
  exitMonitor k

/-- Counts the exit of a monitor that is not on the current frame's list. -/
def countStray (k : MonitorKey) : Exec Unit :=
  modifyThread fun t =>
    if t.frames.head?.any (·.monitors.contains k) then t else { t with strays := t.strays + 1 }

/-- The monitor behind a reference, none behind null. -/
def monitorOf (v : Value) : Exec (Option MonitorKey) := do
  match v with
  | .null => return none
  | .object h | .array h => return some (← entryMonitor h)
  | .classRef c => return some (.ofClass c.id)
  | v => fail (v.mismatch "reference")

/-! ## Frames -/

/-- Takes the arguments of a method off the operand stack and enters a frame for it. -/
def pushFrame (cls : LoadedClass) (m : MethodDecl) : Exec Unit := do
  let t ← thread
  if t.operandDepth < m.argCount then fail .stackUnderflow
  else
    let base := t.operands.size - m.argCount
    let args := (t.operands.extract base t.operands.size).toList.map Operand.value
    modifyThread (·.truncate base)
    let locals ← ofExcept (Frame.localsOf m args)
    report (.pushFrame m.signature (t.frames.length + 1))
    modifyThread (·.pushFrame { cls, method := m, locals, stackBase := base })

/-- Leaves the current frame and answers its method. -/
def popFrame : Exec MethodDecl := do
  let f ← frame
  modifyThread fun t => { t with frames := t.frames.tail }
  f.monitors.forM fun k => discard (exitMonitor k)
  modifyThread (·.truncate f.stackBase)
  report (.popFrame f.method.signature (← thread).frames.length)
  return f.method

/-- Counts a frame that was left and answers how many the run still has. -/
def leaveDepth : Exec Nat := onThread Thread.shallow

/-! ## Catching -/

/-- Drops the operands that the current frame pushed at an address or behind it, from the top on,
and answers their number. -/
def rewind (pc : Nat) : Exec Nat := do
  let t ← thread
  let count := t.countFrom pc
  modifyThread (·.truncate (t.operands.size - count))
  return count

/-- Goes on at a handler, with the exception as the only new operand. -/
def catchException (h : Handler) (exception : Handle) : Exec Unit := do
  let _ ← rewind h.startPc.toNat
  moveFrame (·.jump h.handlerPc.toNat)
  push (.object exception)
  let _ ← takePending

end JavaMachine.Exec
