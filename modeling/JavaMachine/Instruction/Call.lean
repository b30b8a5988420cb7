import JavaMachine.Host
import JavaMachine.Instruction.Operands

/-!
# Calls

`invoke` calls a method whose arguments are on the operand stack: an abstract method raises an
exception, a native runs at once, and any other method gets a frame.  `ensureInitialised` brings a
class into use, its superclasses first.  `deliverUncaught` hands an exception that left the
outermost frame of a thread to the thread's group.  `execute` is the whole of a call from outside.
-/

namespace JavaMachine.Exec

/-- The class that declares a method, by name. -/
def declaringClass (m : MethodDecl) : Exec LoadedClass := findClass m.className

/-- The class of a name for the guest; an exception is raised when there is none. -/
def resolveClass (name : String) : Exec (Option LoadedClass) := do
  match (← library).find? name with
  | some c => return some c
  | none =>
      raise Throwable.noClassDefFoundError (some name)
      return none

/-! ## Invocation -/

/-- The monitor that a synchronized call holds: that of the class for a static method, that of the
receiver otherwise. -/
def methodMonitor (cls : LoadedClass) (m : MethodDecl) : Exec MonitorKey := do
  if m.flags.isStatic then return .ofClass cls.id
  else
    match ← peek m.argCount with
    | .object h | .array h => entryMonitor h
    | .classRef c => return .ofClass c.id
    | v => fail (v.mismatch "object")

/-- Runs the implementation of a native method inside a monitor, if it has one. -/
def invokeNative (host : Host) (m : MethodDecl) (monitor : Option MonitorKey) : Exec Unit := do
  report (.invokeNative m.signature)
  monitor.forM enterMonitor
  match host.natives.find? m.signature with
  | some native =>
      let result ← attempt (native host.toReentry)
      monitor.forM fun k => discard (exitMonitor k)
      ofExcept result
  | none =>
      monitor.forM fun k => discard (exitMonitor k)
      report (.noNative m.signature)
      raise Throwable.unsatisfiedLinkError (some m.signature)

/-- The monitor that a call holds while it runs, none unless it is synchronized. -/
def callMonitor (cls : LoadedClass) (m : MethodDecl) : Exec (Option MonitorKey) :=
  if m.flags.isSynchronized then some <$> methodMonitor cls m else pure none

/-- Enters a frame for a method, which holds a monitor if there is one, and counts it. -/
def enterFrame (cls : LoadedClass) (m : MethodDecl) (monitor : Option MonitorKey) : Exec Unit := do
  pushFrame cls m
  monitor.forM pushMonitor
  discard (onThread Thread.deepen)

/-- Calls a method that has code.  The answer tells whether a frame was entered; an exception is
raised when there are too many frames. -/
def invokeCode (cls : LoadedClass) (m : MethodDecl) (monitor : Option MonitorKey) : Exec Bool := do
  let frames := (← thread).frames.length
  if (← read).config.maxFrames ≤ frames then
    report (.stackOverflow m.signature frames)
    raise Throwable.stackOverflowError none
    return false
  else
    enterFrame cls m monitor
    return true

/-- Calls a method with its arguments on the operand stack.  The answer tells whether a frame was
entered. -/
def invoke (host : Host) (cls : LoadedClass) (m : MethodDecl) : Exec Bool := do
  if m.flags.isAbstract then
    raise Throwable.abstractMethodError (some m.signature)
    return false
  else
    let monitor ← callMonitor cls m
    if m.flags.isNative then
      invokeNative host m monitor
      return false
    else invokeCode cls m monitor

/-! ## Class initialisation -/

/-- What a thread that needs a class has to do. -/
inductive InitAction where
  /-- Run the initialiser. -/
  | run
  /-- Nothing: the class is initialised, or the thread itself is about to. -/
  | ready
  /-- Fail: an earlier initialisation failed. -/
  | failed
  deriving Repr, DecidableEq

/-- Claims the initialisation of a class for the thread, or waits for the thread that runs it. -/
def beginInitialisation (id : Nat) : Exec InitAction := do
  let me := (← thread).id
  match ← initState id with
  | .uninitialised =>
      setInitState id (.initialising me)
      return .run
  | .initialising owner => if owner = me then return .ready else throw .blocked
  | .initialised => return .ready
  | .erroneous => return .failed

/-- Ends the initialisation of a class. -/
def finishInitialisation (id : Nat) (succeeded : Bool) : Exec Unit :=
  setInitState id (if succeeded then .initialised else .erroneous)

/-- Runs the initialiser of a class itself.  The answer tells whether it returned. -/
def runInitialiser (host : Host) (cls : LoadedClass) : Exec Bool := do
  match cls.method? "<clinit>" "()V" with
  | none => return true
  | some m =>
      report (.initialising cls.name)
      let superclass := cls.superName.bind (← library).find?
      record (.started cls.id (superclass.map ((← world).initState ·.id)))
      match ← uncounted (host.call cls m []) with
      | .returned _ => return true
      | .threw _ | .halted => return false

/-- Brings a class into use: its superclass first, then its own initialiser.  The answer tells
whether the class can be used; when it cannot, an exception is pending or the machine is halted.
The budget bounds the number of superclasses. -/
def ensureInitialisedWithin (host : Host) : Nat → LoadedClass → Exec Bool
  | 0, _ => throw .exhausted
  | n + 1, cls => do
      match ← beginInitialisation cls.id with
      | .ready => return true
      | .failed =>
          raise Throwable.noClassDefFoundError (some s!"Could not initialize class {cls.name}")
          return false
      | .run =>
          let result ← attempt do
            match cls.superName.bind (← library).find? with
            | some s =>
                if ← ensureInitialisedWithin host n s then runInitialiser host cls
                else return false
            | none => runInitialiser host cls
          let succeeded := result.toOption.getD false
          finishInitialisation cls.id succeeded
          report (.initialisationFinished cls.name succeeded)
          ofExcept result

/-- Brings a class into use. -/
def ensureInitialised (host : Host) (cls : LoadedClass) : Exec Bool := do
  ensureInitialisedWithin host ((← library).budget + 1) cls

/-! ## Exceptions that nobody catches -/

/-- The name and descriptor of the method of a thread's group that exceptions are delivered to. -/
def uncaughtHandler : String × String :=
  ("uncaughtException", "(Ljava/lang/Thread;Ljava/lang/Throwable;)V")

/-- The thread object and its group, when the thread has one and the group is an object. -/
def threadGroup : Exec (Option (Handle × Handle)) := do
  match (← thread).threadObject with
  | none => return none
  | some t =>
      match ← ofExcept ((← heap).fieldByName t "group") with
      | some (.object group) => return some (t, group)
      | _ => return none

/-- Delivers an exception that left the outermost frame to the thread's group.  What the group's
method itself throws is dropped. -/
def deliverUncaught (host : Host) (exception : Handle) : Exec RunOutcome := do
  let _ ← takePending
  let exceptionClass ← ofExcept ((← heap).classOf exception)
  match ← threadGroup with
  | none => report (.uncaughtWithoutGroup exceptionClass.name)
  | some (thread, group) =>
      let groupClass ← ofExcept ((← heap).classOf group)
      let (name, descriptor) := uncaughtHandler
      match (← library).findVirtual groupClass name descriptor with
      | none => fail (.unresolvedMethod groupClass.name name descriptor)
      | some handler =>
          report (.delivering exceptionClass.name groupClass.name)
          let cls ← declaringClass handler
          record (.delivered exception)
          match ← host.call cls handler [.object group, .object thread, .object exception] with
          | .threw second =>
              let _ ← takePending
              let secondClass ← ofExcept ((← heap).classOf second)
              report (.handlerThrew secondClass.name)
          | .returned _ | .halted => pure ()
  return .uncaught exception

/-! ## Calls from outside -/

/-- Calls a method whose arguments are on the operand stack and runs it to its end. -/
def invokeAndRun (host : Host) (cls : LoadedClass) (m : MethodDecl) : Exec RunOutcome := do
  if ← invoke host cls m then host.run
  else
    let t ← thread
    match t.pending with
    | none => return .completed
    | some exception =>
        if t.level = 0 then deliverUncaught host exception else return .exceptionPending exception

/-- Drops operands of the current frame until so many are left. -/
def dropTo (depth : Nat) : Exec Unit :=
  modifyThread fun t => t.truncate (t.stackBase + depth)

/-- Readies the thread for a call: its arguments are pushed, receiver first, and a counter is
opened for the frames of its run. -/
def prepare (m : MethodDecl) (args : List Value) : Exec Unit := do
  report (.executeMethod m.signature (← thread).level)
  args.forM hand
  modifyThread Thread.openDepth

/-- What a call comes to by the outcome of its run.  A method that is not void has left its result
on the operand stack, and what a failed call left there is dropped. -/
def conclude (m : MethodDecl) (base : Nat) : RunOutcome → Exec Invocation
  | .completed => do
      if m.type.result = .void then return .returned none else return .returned (some (← pop))
  | .halted => return .halted
  | .exceptionPending exception | .uncaught exception => do
      dropTo base
      return .threw exception

/-- Calls a method of a class with arguments, receiver first, and runs it to its end. -/
def execute (host : Host) (cls : LoadedClass) (m : MethodDecl) (args : List Value) :
    Exec Invocation := do
  if args.length ≠ m.argCount then
    fail (.argumentCount m.signature m.argCount args.length)
  let base := (← thread).operandDepth
  prepare m args
  let outcome ← attempt (invokeAndRun host cls m)
  discard (onThread Thread.closeDepth)
  conclude m base (← ofExcept outcome)

end JavaMachine.Exec
