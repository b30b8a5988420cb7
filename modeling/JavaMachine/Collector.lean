/-!
# Collectors

The machine asks its collector before every instruction whether it must run, and runs it at that
instruction boundary if so.  The passive collector never has to run.  The flagged collector runs
when its flag was raised from outside; it only counts its runs, reclaiming memory is left to
whoever raises the flag.
-/

namespace JavaMachine

/-- A collector. -/
inductive Collector where
  /-- Never has to run. -/
  | passive
  /-- Has to run when its flag is raised, and counts its runs. -/
  | flagged (raised : Bool) (runs : Nat)
  deriving Repr, DecidableEq

namespace Collector

/-- A flagged collector that has not run. -/
def fresh : Collector := flagged false 0

/-- Raises the flag. -/
def request : Collector → Collector
  | passive => passive
  | flagged _ runs => flagged true runs

/-- Whether the collector must run. -/
def mustCollect : Collector → Bool
  | passive => false
  | flagged raised _ => raised

/-- Runs the collector. -/
def collect : Collector → Collector
  | passive => passive
  | flagged _ runs => flagged false (runs + 1)

/-- The number of runs. -/
def runs : Collector → Nat
  | passive => 0
  | flagged _ runs => runs

end Collector

end JavaMachine
