/-!
# Events

The machine reports what it does as events.  An event has a level, a sentence and details, and
`Event.line` writes them in one line: level, sentence, and each detail as its name and its text.
-/

namespace JavaMachine

/-- How much an event matters. -/
inductive Level where
  | trace
  | debug
  | warn
  | error
  deriving Repr, DecidableEq

/-- The word for a level. -/
def Level.name : Level → String
  | trace => "TRACE"
  | debug => "DEBUG"
  | warn => "WARN"
  | error => "ERROR"

/-- What the machine reports. -/
inductive Event where
  /-- An instruction is about to run. -/
  | execute (pc : Nat) (mnemonic method : String)
  | pushFrame (method : String) (depth : Nat)
  | popFrame (method : String) (depth : Nat)
  | heapExhausted (capacity : Nat)
  | arrayTooLong (length limit : Nat)
  | resolvedField (className field declaredIn : String)
  | haltRequested
  | collecting (executed : Nat) (periodic : Bool)
  | caught (exception method : String) (pc handler : Nat)
  | executeMethod (method : String) (level : Nat)
  | invokeNative (method : String)
  | initialisationFinished (className : String) (succeeded : Bool)
  | initialising (className : String)
  | delivering (exception group : String)
  | thrown (exception : String)
  | threadPaused
  | haltedWhilePaused
  | threadResumed
  | registeredClass (className : String)
  | raising (exception message : String)
  | raisingOutOfMemory
  | stackOverflow (method : String) (frames : Nat)
  | noNative (method : String)
  | uncaughtWithoutGroup (exception : String)
  | handlerThrew (exception : String)
  | uncaught (exception : String)
  deriving Repr, DecidableEq

namespace Event

/-- The level of an event. -/
def level : Event → Level
  | execute .. => .trace
  | raising .. | raisingOutOfMemory | stackOverflow .. | noNative _ => .warn
  | uncaughtWithoutGroup _ | handlerThrew _ | uncaught _ => .error
  | _ => .debug

/-- The sentence of an event. -/
def sentence : Event → String
  | execute .. => "execute"
  | pushFrame .. => "push frame"
  | popFrame .. => "pop frame"
  | heapExhausted _ => "heap exhausted"
  | arrayTooLong .. => "array too long"
  | resolvedField .. => "resolved field"
  | haltRequested => "halt requested"
  | collecting .. => "collecting at safepoint"
  | caught .. => "caught exception"
  | executeMethod .. => "execute method"
  | invokeNative _ => "invoke native"
  | initialisationFinished .. => "class initialisation finished"
  | initialising _ => "initialising class"
  | delivering .. => "delivering uncaught exception"
  | thrown _ => "athrow"
  | threadPaused => "thread paused at safepoint"
  | haltedWhilePaused => "halted while paused"
  | threadResumed => "thread resumed"
  | registeredClass _ => "registered class"
  | raising .. => "raising exception"
  | raisingOutOfMemory => "heap exhausted, raising OutOfMemoryError"
  | stackOverflow .. => "stack overflow"
  | noNative _ => "no native implementation"
  | uncaughtWithoutGroup _ => "uncaught exception with no thread group"
  | handlerThrew _ => "uncaught exception handler threw"
  | uncaught _ => "uncaught exception"

/-- The details of an event, in order, with their names. -/
def details : Event → List (String × String)
  | execute pc mnemonic method =>
      [("pc", toString pc), ("opcode", mnemonic), ("method", method)]
  | pushFrame method depth | popFrame method depth =>
      [("method", method), ("depth", toString depth)]
  | heapExhausted capacity => [("capacity", toString capacity)]
  | arrayTooLong length limit => [("length", toString length), ("limit", toString limit)]
  | resolvedField className field declaredIn =>
      [("class", className), ("field", field), ("declared_in", declaredIn)]
  | collecting executed periodic =>
      [("executed", toString executed), ("periodic", toString periodic)]
  | caught exception method pc handler =>
      [("exception", exception), ("method", method), ("pc", toString pc),
       ("handler", toString handler)]
  | executeMethod method level => [("method", method), ("level", toString level)]
  | invokeNative method | noNative method => [("method", method)]
  | initialisationFinished className succeeded =>
      [("class", className), ("succeeded", toString succeeded)]
  | initialising className | registeredClass className => [("class", className)]
  | delivering exception group => [("exception", exception), ("group", group)]
  | raising exception message => [("exception", exception), ("message", message)]
  | stackOverflow method frames => [("method", method), ("frames", toString frames)]
  | thrown exception | uncaughtWithoutGroup exception | handlerThrew exception
  | uncaught exception => [("exception", exception)]
  | haltRequested | threadPaused | haltedWhilePaused | threadResumed | raisingOutOfMemory => []

/-- An event in one line. -/
def line (e : Event) : String :=
  String.join ((s!"{e.level.name} {e.sentence}") :: e.details.map fun (k, v) => s!" {k}={v}")

end Event

end JavaMachine
