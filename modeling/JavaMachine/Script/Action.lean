import JavaMachine.Machine.Basic

/-!
# Host actions

A host script is a list of actions on a machine: calls, operations on operands, frames, counters,
monitors, the heap and the library, and questions about them.  An action names values by
expressions, which may refer to classes by name and to values that the script saved before.
-/

namespace JavaMachine.Script

/-- A value as a script writes it. -/
inductive ValueExpr where
  /-- The value itself. -/
  | literal (v : Value)
  /-- The class of a name. -/
  | classNamed (name : String)
  /-- A value that was saved. -/
  | variable (name : String)

/-- A handle as a script writes it. -/
inductive HandleExpr where
  /-- The handle of an index. -/
  | index (n : Nat)
  /-- The handle behind a value. -/
  | behind (v : ValueExpr)

/-- The kinds of reads from code. -/
inductive ReadKind where
  /-- An opcode, which starts an instruction. -/
  | opcode
  | u8
  | i8
  | u16
  | i16
  | i32

/-- What an action on a monitor does first. -/
inductive MonitorAct where
  | look
  | enter
  | exit

/-- An action with what a script says about it. -/
structure Tagged (α : Type) where
  /-- The name of the action. -/
  label : String
  /-- The action. -/
  action : α
  /-- The variable that the answered value is saved in. -/
  saveAs : Option String := none
  /-- The variable without which the action is skipped. -/
  onlyIf : Option String := none
  /-- Whether a native goes on after a fault of the action. -/
  tolerant : Bool := false

/-- An action of a host. -/
inductive Action where
  -- The engine.
  | call (method : MemberRef) (args : List ValueExpr)
  | run
  | raise (className : String) (message : Option String)
  | halt
  | isHalted
  | newString (text : String)
  /-- Asks for a pause, calls, and lets a controller act on the pause. -/
  | pausedCall (method : MemberRef) (args : List ValueExpr) (release : Release)
  /-- Takes actions on another thread. -/
  | inThread (steps : List (Tagged Action))
  | newState (threadObject : Option HandleExpr)
  | setThread (threadObject : Option HandleExpr)
  -- Operands.
  | push (v : ValueExpr)
  | pop
  | peek (n : Nat)
  | operands
  | countFrom (pc : Nat)
  | rewind (pc : Nat)
  -- Frames.
  | pushFrame (method : MemberRef)
  | popFrame
  | hasFrames
  | current
  | frame
  | getLocal (slot : Nat)
  | setLocal (slot : Nat) (v : ValueExpr)
  | localsOf (method : MemberRef) (args : List ValueExpr)
  | jump (target : Nat)
  | branch (offset : Int32)
  | advance (count : Nat)
  | canRead (count : Nat)
  | read (kind : ReadKind)
  -- Depth counters and exceptions.
  | openDepth
  | closeDepth
  | deepen
  | leaveDepth
  | setPending (h : HandleExpr)
  | takePending
  | catchException (handler : Handler) (h : HandleExpr)
  | findHandler (method : MemberRef) (pc : Nat) (exceptionClass : String)
  -- Monitors.
  | pushMonitor (v : ValueExpr)
  | popMonitor (v : ValueExpr)
  | monitor (v : ValueExpr) (act : MonitorAct)
  -- The heap.
  | allocateObject (className : String) (ownFields reserved : Bool)
  | allocateArray (kind : ElementKind) (descriptor : String) (length : Nat)
  | allocateArrayOf (kind : ElementKind) (descriptor : String) (elements : List ValueExpr)
  | reserve (length : Nat)
  | release (h : HandleExpr)
  | heapSize
  | isArray (h : HandleExpr)
  | classOf (h : HandleExpr)
  | arrayLength (h : HandleExpr)
  | arrayDescriptor (h : HandleExpr)
  | readString (h : HandleExpr)
  | getField (h : HandleExpr) (className name : String)
  | setField (h : HandleExpr) (className name : String) (v : ValueExpr)
  | fieldByName (h : HandleExpr) (name : String)
  | loadElement (h : HandleExpr) (index : Int32)
  | storeElement (h : HandleExpr) (index : Int32) (v : ValueExpr)
  | cloneArray (h : HandleExpr)
  | show (v : ValueExpr)
  -- Resolution.
  | resolveField (className name : String)
  | resolveMethod (method : MemberRef)
  | findVirtual (method : MemberRef)
  | selectSpecial (current : String) (method : MemberRef)
  | isSubclass (derived ancestor : String)
  | isAssignable (source target : String)
  | instanceFields (className : String)
  -- Classes.
  | describeClass (className : String)
  | librarySize
  | register (spec : ClassSpec)
  | initState (className : String)
  | beginInit (className : String)
  /-- Ends an initialisation, perhaps while another thread waits for it. -/
  | finishInit (className : String) (succeeded waited : Bool)
  | getStatic (className name : String)
  | setStatic (className name : String) (v : ValueExpr)
  -- The collector.
  | requestCollection
  | collections

/-- An action of a script. -/
abbrev Step := Tagged Action

/-- The values that a script saved, newest first. -/
abbrev Variables := List (String × Value)

end JavaMachine.Script
