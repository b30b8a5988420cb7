import JavaMachine.Answer
import JavaMachine.Collector
import JavaMachine.Config
import JavaMachine.Event
import JavaMachine.Heap
import JavaMachine.Thread

/-!
# The machine

A machine is a world, which all threads share, and the thread that runs.  The world has the class
library, the state of every class, the heap, the monitors, the collector, the memo of resolved
fields, the interned strings, the pause tokens, and the halt flag.  What the machine reports and
what host scripts note down is kept with the world too.

`Exec` is a computation of a machine.  It reads the settings and changes the machine, and it ends
with a result or it stops: in a fault, or because the thread has to wait for another one, or
because its budget is used up.  However it ends, the machine stays as the computation left it.
-/

namespace JavaMachine

/-- How far the initialisation of a class has come. -/
inductive InitState where
  | uninitialised
  /-- A thread runs the initialiser. -/
  | initialising (thread : ThreadId)
  | initialised
  /-- The initialiser failed, and every later use fails. -/
  | erroneous
  deriving Repr, DecidableEq

/-- What changes about a class while the machine runs. -/
structure ClassState where
  /-- How far its initialisation has come. -/
  init : InitState := .uninitialised
  /-- What its fields hold, in declaration order; only the static ones are used by code. -/
  statics : Array Value

/-- What a machine has done about its classes and about exceptions that nobody caught. -/
inductive Occurrence where
  /-- The initialisation of a class went from one state to another. -/
  | moved (id : Nat) (source target : InitState)
  /-- The initialiser of a class was called.  Its superclass, if the library has it, was in a
  state. -/
  | started (id : Nat) (superclass : Option InitState)
  /-- A thread came to use a class: to access a static field of it, to call a static method of it
  or to make an object of it.  The class was in a state. -/
  | used (id : Nat) (thread : ThreadId) (state : InitState)
  /-- An exception was handed to the group of its thread. -/
  | delivered (exception : Handle)
  deriving DecidableEq

/-- The state of a class that was just declared. -/
def ClassDecl.freshState (c : ClassDecl) : ClassState :=
  { statics := (c.fields.map fun f => Value.defaultOf f.type).toArray }

/-- What instructions have let pass although it is against the types or the limits.  Nothing depends
on it. -/
structure Lapses where
  /-- The number of times an instruction stored into an array with elements of another kind. -/
  mixings : Nat := 0
  /-- The number of return addresses that were stored into fields. -/
  leaks : Nat := 0
  /-- The number of strings of more characters than an array may have elements. -/
  stretches : Nat := 0

namespace Lapses

/-- Counts mixings. -/
def mix (l : Lapses) (n : Nat) : Lapses := { l with mixings := l.mixings + n }

/-- Counts a value that is stored into a field, if it is a return address. -/
def leak (l : Lapses) (v : Value) : Lapses :=
  { l with leaks := l.leaks + if v.isReturnAddress then 1 else 0 }

/-- Counts a string, if it is too long for an array. -/
def stretch (l : Lapses) (tooLong : Bool) : Lapses :=
  { l with stretches := l.stretches + if tooLong then 1 else 0 }

end Lapses

/-- What all threads of a machine share. -/
structure World where
  /-- The class library. -/
  library : Library := {}
  /-- The state of every registered class, in the order of registration. -/
  classStates : Array ClassState := #[]
  /-- The heap. -/
  heap : Heap := {}
  /-- The monitors. -/
  monitors : Monitors := {}
  /-- The fields resolved so far, by the class name and field name of the reference. -/
  fieldMemo : List ((String × String) × FieldRef) := []
  /-- The number of times a field was searched for in the hierarchy. -/
  fieldWalks : Nat := 0
  /-- The string objects of the literals met so far. -/
  interned : List (String × Handle) := []
  /-- Whether the machine is halted. -/
  halted : Bool := false
  /-- The collector. -/
  collector : Collector := .fresh
  /-- The number of times the collector was asked whether it must run. -/
  asked : Nat := 0
  /-- The question to the collector at which the machine is halted, if any. -/
  haltAt : Option Nat := none
  /-- The number of threads started so far. -/
  threads : Nat := 0
  /-- The pause tokens issued so far; the first one is that of the first thread. -/
  tokens : Array PauseToken := #[{}]
  /-- What was reported, oldest first. -/
  events : Array Event := #[]
  /-- What host scripts noted down, oldest first. -/
  notes : Array Note := #[]
  /-- What was done about classes and uncaught exceptions, newest first.  Nothing depends on it: it
  keeps for the end of a computation what happened on the way. -/
  history : List Occurrence := []
  /-- The number of allocations that were refused, those refused to the initialisers of classes
  apart.  Nothing depends on it. -/
  refusals : Nat := 0
  /-- The number of times an instruction for primitive elements stored into an array of references.
  Nothing depends on it. -/
  crossings : Nat := 0
  /-- What instructions have let pass.  Nothing depends on it. -/
  lapses : Lapses := {}

/-- How far the initialisation of a class has come. -/
def World.initState (w : World) (id : Nat) : InitState :=
  ((w.classStates[id]?).map ClassState.init).getD .uninitialised

/-- A world and the thread that runs in it. -/
structure Machine where
  /-- What all threads share. -/
  world : World
  /-- The thread that runs. -/
  thread : Thread

/-- What does not change while a machine runs. -/
structure Settings where
  /-- The configuration. -/
  config : Config := {}
  /-- The levels of the events that are kept. -/
  levels : List Level := []

/-- Why a computation stopped without a result. -/
inductive Stop where
  /-- The host side failed. -/
  | fault (cause : Fault)
  /-- The thread has to wait for another thread. -/
  | blocked
  /-- The budget is used up. -/
  | exhausted

/-- A computation of a machine. -/
abbrev Exec := ReaderT Settings (EStateM Stop Machine)

namespace Exec

/-! ## Stopping -/

/-- Stops in a fault. -/
def fail {α : Type} (f : Fault) : Exec α := throw (.fault f)

/-- Takes the result of a pure operation, or stops in its fault. -/
def ofExcept {α : Type} : Except Fault α → Exec α
  | .ok a => pure a
  | .error f => fail f

/-- The result of a computation, or the fault in which it stopped. -/
def attempt {α : Type} (x : Exec α) : Exec (Except Fault α) := fun s m =>
  match x s m with
  | .ok a m => .ok (.ok a) m
  | .error (.fault f) m => .ok (.error f) m
  | .error stop m => .error stop m

/-! ## The parts of a machine -/

/-- The world. -/
def world : Exec World := return (← get).world

/-- The thread. -/
def thread : Exec Thread := return (← get).thread

/-- The heap. -/
def heap : Exec Heap := return (← get).world.heap

/-- The class library. -/
def library : Exec Library := return (← get).world.library

/-- Changes the world. -/
def modifyWorld (f : World → World) : Exec Unit := modify fun m => { m with world := f m.world }

/-- Changes the thread. -/
def modifyThread (f : Thread → Thread) : Exec Unit :=
  modify fun m => { m with thread := f m.thread }

/-- Replaces the heap. -/
def setHeap (h : Heap) : Exec Unit := modifyWorld fun w => { w with heap := h }

/-- Keeps an event if its level is kept. -/
def report (e : Event) : Exec Unit := do
  if (← read).levels.contains e.level then
    modifyWorld fun w => { w with events := w.events.push e }

/-- Adds to the history. -/
def record (o : Occurrence) : Exec Unit := modifyWorld fun w => { w with history := o :: w.history }

/-- Runs an operation of the thread. -/
def onThread {α : Type} (f : Thread → Except Fault (α × Thread)) : Exec α := do
  let m ← get
  match f m.thread with
  | .ok (a, t) => set { m with thread := t }; return a
  | .error e => fail e

/-- Runs an operation of the current frame. -/
def onFrame {α : Type} (f : Frame → Except Fault (α × Frame)) : Exec α :=
  onThread fun t => do
    let (a, frame) ← f (← t.frame)
    return (a, t.setFrame frame)

/-- Moves the current frame. -/
def moveFrame (f : Frame → Except Fault Frame) : Exec Unit :=
  onFrame fun frame => do return ((), ← f frame)

/-- The current frame. -/
def frame : Exec Frame := do ofExcept (← thread).frame

/-! ## Operands -/

/-- Pushes a value. -/
def push (v : Value) : Exec Unit := modifyThread (·.push v)

/-- Pushes a value that comes from outside the current frame. -/
def hand (v : Value) : Exec Unit := modifyThread (·.hand v)

/-- Pushes an operand as it is. -/
def pushOperand (o : Operand) : Exec Unit := modifyThread (·.pushOperand o)

/-- Pops an operand. -/
def popOperand : Exec Operand := onThread Thread.popOperand

/-- Pops a value. -/
def pop : Exec Value := return (← popOperand).value

/-- The `n`-th value from the top. -/
def peek (n : Nat) : Exec Value := do ofExcept ((← thread).peek n)

/-- Pops an int. -/
def popInt : Exec Int32 := do ofExcept (← pop).asInt

/-- Pops a long. -/
def popLong : Exec Int64 := do ofExcept (← pop).asLong

/-- Pops a float. -/
def popFloat : Exec Float32 := do ofExcept (← pop).asFloat

/-- Pops a double. -/
def popDouble : Exec Float := do ofExcept (← pop).asDouble

/-! ## Code -/

/-- Reads a byte of the code. -/
def readU8 : Exec UInt8 := do return (← onFrame (·.readBytes 1)).toUInt8

/-- Reads a signed byte of the code. -/
def readI8 : Exec Int8 := do return (← readU8).toInt8

/-- Reads two bytes of the code. -/
def readU16 : Exec UInt16 := do return (← onFrame (·.readBytes 2)).toUInt16

/-- Reads two bytes of the code as a signed number. -/
def readI16 : Exec Int16 := do return (← readU16).toInt16

/-- Reads four bytes of the code as a signed number. -/
def readI32 : Exec Int32 := do return (← onFrame (·.readBytes 4)).toUInt32.toInt32

/-! ## Exceptions -/

/-- Makes an exception the pending one. -/
def setPending (h : Handle) : Exec Unit := modifyThread fun t => { t with pending := some h }

/-- Clears the pending exception and answers it. -/
def takePending : Exec (Option Handle) := do
  let pending := (← thread).pending
  modifyThread fun t => { t with pending := none }
  return pending

/-! ## Classes -/

/-- The class of a name. -/
def findClass (name : String) : Exec LoadedClass := do ofExcept ((← library).find name)

/-- Registers a class. -/
def register (decl : ClassDecl) : Exec LoadedClass := do
  let (lib, cls) := (← library).register decl
  report (.registeredClass cls.name)
  modifyWorld fun w =>
    { w with library := lib, classStates := w.classStates.push decl.freshState }
  return cls

/-- How far the initialisation of a class has come. -/
def initState (id : Nat) : Exec InitState := return (← world).initState id

/-- Moves the initialisation of a class. -/
def setInitState (id : Nat) (s : InitState) : Exec Unit := do
  record (.moved id (← initState id) s)
  modifyWorld fun w =>
    { w with classStates := w.classStates.modify id ({ · with init := s }) }

/-- Notes down that the thread comes to use a class. -/
def useClass (id : Nat) : Exec Unit := do
  record (.used id (← thread).id (← initState id))

/-- What a static field holds. -/
def getStatic (f : FieldRef) : Exec Value := do
  let state := (← world).classStates[f.owner.id]?
  return (state.bind (·.statics[f.index]?)).getD (Value.defaultOf f.decl.type)

/-- Stores into a static field. -/
def setStatic (f : FieldRef) (v : Value) : Exec Unit :=
  modifyWorld fun w =>
    { w with
      classStates := w.classStates.modify f.owner.id fun s =>
        { s with statics := s.statics.setIfInBounds f.index v }
      lapses := w.lapses.leak v }

/-! ## Halting -/

/-- Halts the machine. -/
def halt : Exec Unit := do
  report .haltRequested
  modifyWorld fun w => { w with halted := true }

/-- Whether the machine is halted. -/
def isHalted : Exec Bool := return (← world).halted

/-! ## Pausing -/

/-- A pause token. -/
def pauseToken (id : TokenId) : Exec PauseToken := return ((← world).tokens[id]?).getD {}

/-- Changes a pause token. -/
def modifyToken (id : TokenId) (f : PauseToken → PauseToken) : Exec Unit :=
  modifyWorld fun w => { w with tokens := w.tokens.modify id f }

/-- Issues a pause token. -/
def issueToken : Exec TokenId := do
  let id := (← world).tokens.size
  modifyWorld fun w => { w with tokens := w.tokens.push {} }
  return id

/-- The controllers that wait at a pause token find its phase and act on it. -/
def settleToken (id : TokenId) : Exec Unit := do
  let due := (← pauseToken id).due
  modifyToken id PauseToken.settle
  if due.contains .halt then modifyWorld fun w => { w with halted := true }

end Exec

end JavaMachine
