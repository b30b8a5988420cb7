import JavaMachine.Bootstrap
import JavaMachine.CoreNatives
import JavaMachine.Script.Perform

/-!
# Sessions

A session sets a machine up and runs a script on it: the bootstrap classes and the classes of the
session are registered, its natives take precedence over the core ones, and every action of the
script is reported.
-/

namespace JavaMachine.Script

/-- A native method that a script implements. -/
structure ScriptedNative where
  /-- The method. -/
  method : MemberRef
  /-- The script. -/
  body : List Step

/-- A machine to set up and a script to run on it. -/
structure Session where
  /-- The configuration. -/
  config : Config := {}
  /-- Whether the bootstrap classes are registered. -/
  bootstrap : Bool := true
  /-- The classes to register. -/
  classes : List ClassSpec := []
  /-- Whether the core natives are there. -/
  withCoreNatives : Bool := true
  /-- The natives of the session. -/
  natives : List ScriptedNative := []
  /-- The collector. -/
  collector : Collector := .fresh
  /-- The question to the collector at which the machine is halted. -/
  haltAt : Option Nat := none
  /-- The levels of the events that are kept. -/
  levels : List Level := []
  /-- The script. -/
  steps : List Step := []

namespace Session

/-- The budget of a session: more than any run that comes to an end in reasonable time. -/
def budget : Nat := 1000000000

/-- The natives of a session. -/
def nativeTable (s : Session) : Natives :=
  s.natives.foldl
    (fun table n => table.register n.method.signature (native n.method.name n.body))
    (if s.withCoreNatives then coreNatives else [])

/-- The machine before anything is registered: one thread, and a heap as configured. -/
def blank (s : Session) : Machine where
  world :=
    { heap := { capacity := s.config.heapCapacity, maxArrayLength := s.config.maxArrayLength }
      collector := s.collector
      haltAt := s.haltAt
      threads := 1 }
  thread := { id := 0 }

/-- Sets the machine up and runs the script. -/
def play (s : Session) : Exec (List Answer) := do
  if s.bootstrap then Bootstrap.load
  s.classes.forM fun c => discard (Bootstrap.define c)
  return (← runSteps (Engine.reentry s.nativeTable budget) [] s.steps).2

/-- The reports of a session, or why it came to none. -/
def run (s : Session) : Except Stop (List Answer) :=
  match s.play { config := s.config, levels := s.levels } s.blank with
  | .ok answers _ => .ok answers
  | .error stop _ => .error stop

end Session

end JavaMachine.Script
