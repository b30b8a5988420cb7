import JavaMachine.Machine.Activation

/-!
# Natives and re-entry

A native method is implemented by the host.  It finds its arguments on the operand stack of its
caller, receiver first, and replaces them by its result.  It may call back into the machine, and
it gets the two ways to do so as a `Reentry`: calling a method and going on with the frames of the
thread.  The instructions that call methods get a `Host`, which has the natives as well.
-/

namespace JavaMachine

/-- Why a run came to an end. -/
inductive RunOutcome where
  /-- All frames of the run have returned. -/
  | completed
  /-- The machine is halted, and the frames stay as they are. -/
  | halted
  /-- An exception left all frames of a run inside another one, and is still pending. -/
  | exceptionPending (exception : Handle)
  /-- An exception left the outermost frame, and was delivered to the thread's group. -/
  | uncaught (exception : Handle)
  deriving Repr, DecidableEq

/-- What a call came to. -/
inductive Invocation where
  /-- The method returned, with a value unless it is void. -/
  | returned (v : Option Value)
  /-- An exception left the method. -/
  | threw (exception : Handle)
  /-- The machine is halted. -/
  | halted

/-- What happens after an instruction. -/
inductive Flow where
  | next
  /-- The last frame of the run has returned. -/
  | leave
  deriving Repr, DecidableEq

/-- The ways back into the machine. -/
structure Reentry where
  /-- Calls a method of a class with arguments, receiver first. -/
  call : LoadedClass → MethodDecl → List Value → Exec Invocation
  /-- Goes on with the frames of the thread. -/
  run : Exec RunOutcome

/-- The implementation of a native method. -/
abbrev NativeFn := Reentry → Exec Unit

/-- The implementations of native methods by signature.  An earlier row hides a later one. -/
abbrev Natives := List (String × NativeFn)

namespace Natives

/-- Whether a signature has an implementation. -/
def contains (ns : Natives) (signature : String) : Bool := ns.any (·.1 == signature)

/-- The implementation of a signature. -/
def find? (ns : Natives) (signature : String) : Option NativeFn := ns.lookup signature

/-- Adds an implementation, in the place of an earlier one. -/
def register (ns : Natives) (signature : String) (f : NativeFn) : Natives := (signature, f) :: ns

end Natives

/-- What the instructions that call methods work with. -/
structure Host extends Reentry where
  /-- The natives. -/
  natives : Natives

end JavaMachine
