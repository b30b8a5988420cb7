/-!
# Pausing a thread

A controller asks a thread to pause, the thread confirms the pause at its next instruction
boundary and stays there until it is resumed or the machine is halted.  The phase moves from
running to pausing by a request, from pausing to paused by the thread, and back to running by a
resume.

The phase is kept in a pause token, together with the controllers that stand by.  A controller
waits for as long as the token is pausing; then it notes the phase that it finds and releases the
thread.  A token outlives the thread that was made with it: who holds the token goes on seeing it
after the thread was replaced.
-/

namespace JavaMachine

/-- Where a thread stands with respect to a pause. -/
inductive Phase where
  | running
  /-- A pause is asked for. -/
  | pausing
  /-- The thread has confirmed the pause. -/
  | paused
  deriving Repr, DecidableEq

namespace Phase

/-- The word for a phase. -/
def name : Phase → String
  | running => "Running"
  | pausing => "Pausing"
  | paused => "Paused"

/-- Asks for a pause.  Only a running thread hears it. -/
def request : Phase → Phase
  | running => pausing
  | p => p

/-- Lets the thread go on. -/
def resume : Phase → Phase := fun _ => running

/-- The thread's side: a pause that is asked for is confirmed, and nothing is answered when none
is. -/
def confirm? : Phase → Option Phase
  | pausing => some paused
  | _ => none

end Phase

/-- What a controller does to a paused thread. -/
inductive Release where
  | resume
  /-- Halts the machine; the thread leaves the pause and its phase stays paused. -/
  | halt
  deriving Repr, DecidableEq

/-- A controller that asked for a pause. -/
structure Controller where
  /-- What it does to the thread. -/
  release : Release
  /-- The phase that it found when the token was no longer pausing, and nothing while it waits. -/
  found : Option Phase := none
  deriving Repr, DecidableEq

/-- A controller that still waits notes the phase that it finds. -/
def Controller.meet (c : Controller) (p : Phase) : Controller :=
  { c with found := some (c.found.getD p) }

/-- The identity of a pause token. -/
abbrev TokenId := Nat

/-- Where a thread stands with respect to a pause, and the controllers that stand by. -/
structure PauseToken where
  /-- Where the thread stands. -/
  phase : Phase := .running
  /-- The controllers, newest first. -/
  controllers : List Controller := []
  deriving Repr, DecidableEq

namespace PauseToken

/-- A controller asks for a pause and stands by. -/
def enlist (t : PauseToken) (r : Release) : PauseToken where
  phase := t.phase.request
  controllers := { release := r } :: t.controllers

/-- What the controllers that still wait are going to do. -/
def due (t : PauseToken) : List Release :=
  (t.controllers.filter (·.found.isNone)).map Controller.release

/-- The controllers that still wait find the phase, and the thread goes on if one of them resumes
it. -/
def settle (t : PauseToken) : PauseToken where
  phase := if t.due.contains .resume then t.phase.resume else t.phase
  controllers := t.controllers.map (·.meet t.phase)

/-- The newest controller goes.  The answer is the phase that it found, which is the present one
if it still waits. -/
def dismiss (t : PauseToken) : Phase × PauseToken :=
  ((t.controllers.head?.bind Controller.found).getD t.phase,
   { t with controllers := t.controllers.tail })

end PauseToken

end JavaMachine
