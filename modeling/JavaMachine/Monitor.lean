/-!
# Monitors

A monitor is a lock that its owner may enter again.  `Monitor.enter?` answers nothing when another
thread owns the monitor, which is when the caller has to wait; `Monitor.exit` gives up one level of
ownership.  A monitor belongs to a heap entry or to a class.  A heap entry is named by its serial
number, which is never used again, so that the monitor of an entry that is gone is still known to
the frames that hold it.  `Monitors` keeps the monitors of a machine, and one that it does not
mention is free.
-/

namespace JavaMachine

/-- The identity of a thread. -/
abbrev ThreadId := Nat

/-- A lock that its owner may enter any number of times. -/
structure Monitor where
  /-- The thread inside, if any. -/
  owner : Option ThreadId := none
  /-- The number of times the owner has to leave. -/
  count : Nat := 0
  deriving Repr, DecidableEq

namespace Monitor

/-- A monitor that nobody owns. -/
def free : Monitor := {}

/-- The monitor with the thread inside, and nothing when the thread has to wait. -/
def enter? (m : Monitor) (t : ThreadId) : Option Monitor :=
  match m.owner with
  | none => some ⟨some t, 1⟩
  | some owner => if owner = t then some ⟨some owner, m.count + 1⟩ else none

/-- Whether the thread owns the monitor. -/
def isOwnedBy (m : Monitor) (t : ThreadId) : Bool := m.owner == some t

/-- Gives up one level of ownership.  The answer tells whether the thread was the owner; nothing
changes when it was not. -/
def exit (m : Monitor) (t : ThreadId) : Bool × Monitor :=
  if m.isOwnedBy t then
    (true, if m.count - 1 = 0 then free else ⟨m.owner, m.count - 1⟩)
  else (false, m)

end Monitor

/-- What a monitor belongs to. -/
inductive MonitorKey where
  /-- The heap entry of a serial number. -/
  | entry (serial : Nat)
  /-- The class of an identity. -/
  | ofClass (id : Nat)
  deriving Repr, DecidableEq

/-- The monitors of a machine. -/
structure Monitors where
  /-- The monitors that were touched, newest first. -/
  touched : List (MonitorKey × Monitor) := []

namespace Monitors

/-- The monitor of a key. -/
def get (ms : Monitors) (k : MonitorKey) : Monitor := (ms.touched.lookup k).getD .free

/-- Replaces the monitor of a key. -/
def set (ms : Monitors) (k : MonitorKey) (m : Monitor) : Monitors :=
  ⟨(k, m) :: ms.touched.filter (·.1 != k)⟩

end Monitors

end JavaMachine
