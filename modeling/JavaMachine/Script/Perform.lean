import JavaMachine.Run
import JavaMachine.Script.Action
import JavaMachine.Script.Show

/-!
# Performing host actions

`perform` does what an action says and answers it, together with the value that the answer
consists of, if it is one.  `runSteps` takes the actions of a script in order and reports each of
them with the state that it leaves: an action that ends in a fault is answered by the fault, and
the script goes on.  `native` makes a native method of a script: the answers are noted down, and a
fault ends the native unless the action tolerates it.
-/

namespace JavaMachine.Script

open Exec

/-- An answer, and the value that it consists of. -/
structure Reply where
  /-- The answer. -/
  answer : Answer
  /-- The value, if the answer is one. -/
  value : Option Value := none

namespace Reply

/-- The reply of an action that answers nothing. -/
def nothing : Reply := ⟨.none, none⟩

/-- The reply of a truth value. -/
def flag (b : Bool) : Reply := ⟨.flag b, none⟩

/-- The reply of a number. -/
def number (n : Int) : Reply := ⟨.number n, none⟩

/-- The reply of a text. -/
def text (s : String) : Reply := ⟨.text s, none⟩

/-- The reply of a list. -/
def list (items : List Answer) : Reply := ⟨.list items, none⟩

/-- The reply of a value. -/
def ofValue (v : Value) : Reply := ⟨.value v, some v⟩

/-- The reply of a value or of nothing. -/
def value? (v : Option Value) : Reply := ⟨.ofValue? v, v⟩

end Reply

/-! ## Names and expressions -/

/-- The value of an expression. -/
def evalValue (vars : Variables) : ValueExpr → Exec Value
  | .literal v => return v
  | .classNamed name => return .classRef (← findClass name).ref
  | .variable name => return (vars.lookup name).getD .null

/-- The values of expressions, in order. -/
def evalValues (vars : Variables) (es : List ValueExpr) : Exec (List Value) :=
  es.mapM (evalValue vars)

/-- The handle of an expression. -/
def evalHandle (vars : Variables) : HandleExpr → Exec Handle
  | .index n => return ⟨n⟩
  | .behind e => do
      let v ← evalValue vars e
      match ← ofExcept v.asHandle with
      | some h => return h
      | none => fail (v.mismatch "reference")

/-- The method that a class itself declares. -/
def declaredMethod (ref : MemberRef) : Exec (LoadedClass × MethodDecl) := do
  let cls ← findClass ref.className
  match cls.method? ref.name ref.descriptor with
  | some m => return (cls, m)
  | none => fail (.unresolvedMethod ref.className ref.name ref.descriptor)

/-- The field that a class itself declares. -/
def declaredField (className name : String) : Exec FieldRef := do
  let cls ← findClass className
  match cls.field? name with
  | some f => return f
  | none => fail (.unresolvedField className name)

/-- The monitor of a value. -/
def monitorKey (v : Value) : Exec MonitorKey := do
  match ← monitorOf v with
  | some k => return k
  | none => fail (v.mismatch "reference")

/-- Runs a question to the heap about the handle of an expression. -/
def askHeap {α : Type} (vars : Variables) (h : HandleExpr)
    (f : Heap → Handle → Except Fault α) : Exec α := do
  let h ← evalHandle vars h
  ofExcept (f (← heap) h)

/-! ## Answers -/

/-- The answer of a call. -/
def callAnswer (w : World) : Invocation → Answer
  | .returned none => .record [("returned", .none)]
  | .returned (some v) => .record [("returned", w.shown 3 v)]
  | .threw h => .record [("threw", w.shown 2 (.object h))]
  | .halted => .record [("halted", .flag true)]

/-- The value of a call. -/
def callValue : Invocation → Option Value
  | .returned v => v
  | _ => none

/-- The answer of a run. -/
def runAnswer : RunOutcome → Answer
  | .completed => .list [.text "Completed"]
  | .halted => .list [.text "Halted"]
  | .exceptionPending h => .list [.text "ExceptionPending", .number h.index]
  | .uncaught h => .list [.text "Uncaught", .number h.index]

/-- The name of an initialisation action. -/
def initActionName : InitAction → String
  | .run => "Run"
  | .ready => "Ready"
  | .failed => "Failed"

/-- A field with what it holds. -/
def describeField (f : FieldRef) : Exec Answer := do
  return f.decl.described (some (← Exec.getStatic f))

/-- The current frame. -/
def describeFrame : Exec Answer := do
  let f ← Exec.frame
  let m ← get
  return .record
    [("method", .text f.method.signature), ("class", .text f.cls.name), ("pc", .number f.pc),
     ("instruction_pc", .number f.instructionPc), ("code_len", .number f.codeLength),
     ("code_sum", .number (f.method.code.data.foldl (fun n b => n + b.toNat) 0)),
     ("locals", .list (f.locals.toList.map .value)),
     ("operands", .list (m.thread.frameOperands.map fun o => .value o.value)),
     ("monitors", .list (f.monitors.reverse.map fun k =>
       .number (m.world.monitors.get k).count))]

/-! ## Actions -/

/-- Calls a method while a controller waits for the thread to pause.  The reply has the answer of
the call, the phase that the controller found, and the phase that the call left; it has the value
of the call.  A call that comes back without having met an instruction is resumed from outside, and
the controllers that wait find it running. -/
def pausedCall (re : Reentry) (vars : Variables) (ref : MemberRef) (args : List ValueExpr)
    (release : Release) : Exec Reply := do
  let (cls, m) ← declaredMethod ref
  let args ← evalValues vars args
  let id := (← thread).token
  modifyToken id (·.enlist release)
  let result ← attempt (re.call cls m args)
  let left := (← pauseToken id).phase
  if left = .pausing then modifyToken id fun t => { t with phase := left.resume }
  settleToken id
  let (found, token) := (← pauseToken id).dismiss
  modifyToken id fun _ => token
  let answer := Answer.ofExcept (callAnswer (← world)) result
  return ⟨.list [answer, .text found.name, .text left.name], result.toOption.bind callValue⟩

/-- Ends an initialisation.  A thread that waits for it, or comes at the same moment, gets the
action that the class then has for it. -/
def finishInit (className : String) (succeeded waited : Bool) : Exec Reply := do
  let cls ← findClass className
  let before ← Exec.initState cls.id
  finishInitialisation cls.id succeeded
  let after ← Exec.initState cls.id
  if waited then
    let met := match before with
      | .initialising _ => after
      | s => s
    let action : InitAction := match met with
      | .uninitialised => .run
      | .erroneous => .failed
      | _ => .ready
    return .list [.text after.name, .text (initActionName action)]
  else return .text after.name

/-- Reads from the code of the current frame. -/
def readCode : ReadKind → Exec Int
  | .opcode => do
      moveFrame fun f => .ok f.beginInstruction
      return (← readU8).toNat
  | .u8 => do return (← readU8).toNat
  | .i8 => do return (← readI8).toInt
  | .u16 => do return (← readU16).toNat
  | .i16 => do return (← readI16).toInt
  | .i32 => do return (← readI32).toInt

/-- Replaces the thread by a fresh one of the same identity, with a pause token of its own. -/
def newState (threadObject : Option Handle) : Exec Unit := do
  let token ← issueToken
  modifyThread fun t => { id := t.id, threadObject, token }

/-- Performs an action that stays on the thread. -/
def performHere (re : Reentry) (vars : Variables) : Action → Exec Reply
  | .call ref args => do
      let (cls, m) ← declaredMethod ref
      let result ← re.call cls m (← evalValues vars args)
      return ⟨callAnswer (← world) result, callValue result⟩
  | .run => do return ⟨runAnswer (← re.run), none⟩
  | .raise className message => do
      Exec.raise className message
      return .nothing
  | .halt => do
      Exec.halt
      return .nothing
  | .isHalted => do return .flag (← Exec.isHalted)
  | .newString text => do return .ofValue (.object (← Exec.newString text))
  | .pausedCall ref args release => pausedCall re vars ref args release
  | .inThread _ => return .nothing
  | .newState h => do
      newState (← h.mapM (evalHandle vars))
      return .nothing
  | .setThread h => do
      let h ← h.mapM (evalHandle vars)
      modifyThread fun t => { t with threadObject := h }
      return ⟨.ofNat? (h.map Handle.index), none⟩
  | .push v => do
      Exec.push (← evalValue vars v)
      return .nothing
  | .pop => do return .ofValue (← Exec.pop)
  | .peek n => do return .ofValue (← Exec.peek n)
  | .operands => do
      return .list ((← thread).frameOperands.map fun o => .value o.value)
  | .countFrom pc => do return .number ((← thread).countFrom pc)
  | .rewind pc => do return .number (← Exec.rewind pc)
  | .pushFrame ref => do
      let (cls, m) ← declaredMethod ref
      Exec.pushFrame cls m
      return .nothing
  | .popFrame => do return .text (← Exec.popFrame).signature
  | .hasFrames => do return .flag (!(← thread).frames.isEmpty)
  | .current => do
      let f ← Exec.frame
      return .list [.text f.cls.name, .text f.method.signature]
  | .frame => do return ⟨← describeFrame, none⟩
  | .getLocal slot => do return .ofValue (← ofExcept ((← Exec.frame).getLocal slot))
  | .setLocal slot v => do
      let v ← evalValue vars v
      moveFrame (·.setLocal slot v)
      return .nothing
  | .localsOf ref args => do
      let (_, m) ← declaredMethod ref
      let slots ← ofExcept (Frame.localsOf m (← evalValues vars args))
      return .list (slots.toList.map .value)
  | .jump target => do
      moveFrame (·.jump target)
      return .nothing
  | .branch offset => do
      Exec.branch offset
      return .nothing
  | .advance count => do
      moveFrame (·.advance count)
      return .nothing
  | .canRead count => do return .flag ((← Exec.frame).canRead count)
  | .read kind => do return .number (← readCode kind)
  | .openDepth => do
      modifyThread Thread.openDepth
      return .nothing
  | .closeDepth => do return .number (← onThread Thread.closeDepth)
  | .deepen => do return .number (← onThread Thread.deepen)
  | .leaveDepth => do return .number (← Exec.leaveDepth)
  | .setPending h => do
      Exec.setPending (← evalHandle vars h)
      return .flag true
  | .takePending => do
      match ← Exec.takePending with
      | some h => return .ofValue (.object h)
      | none => return .flag false
  | .catchException handler h => do
      Exec.catchException handler (← evalHandle vars h)
      return .nothing
  | .findHandler ref pc exceptionClass => do
      let (_, m) ← declaredMethod ref
      match (← library).findHandler m pc exceptionClass with
      | some h => return .list [h.described, .flag true]
      | none => return .list [.none, .flag false]
  | .pushMonitor v => do
      Exec.pushMonitor (← monitorKey (← evalValue vars v))
      return .nothing
  | .popMonitor v => do
      return .flag (← Exec.popMonitor (← monitorKey (← evalValue vars v)))
  | .monitor v act => do
      let k ← monitorKey (← evalValue vars v)
      match act with
      | .exit => return .flag (← exitMonitor k)
      | act =>
          if let .enter := act then enterMonitor k
          let m ← get
          let monitor := m.world.monitors.get k
          return .list [.number monitor.count, .flag (monitor.isOwnedBy m.thread.id)]
  | .allocateObject className ownFields reserved => do
      let cls ← findClass className
      let lib ← library
      let fields := if ownFields then cls.fields else lib.instanceFields cls
      return .ofValue (.object (← allocate (·.allocateObject cls fields reserved)))
  | .allocateArray kind descriptor length => do
      return .ofValue (.array (← allocate (·.allocateArray kind descriptor length)))
  | .allocateArrayOf kind descriptor elements => do
      let elements := (← evalValues vars elements).toArray
      return .ofValue (.array (← allocate (·.allocateArrayOf kind descriptor elements)))
  | .reserve length => do
      checkLength length
      return .number 0
  | .release h => do
      setHeap (← askHeap vars h Heap.release)
      return .nothing
  | .heapSize => do
      let live := (← heap).live
      return .list [.number live, .flag (live == 0)]
  | .isArray h => do return .flag (← askHeap vars h Heap.isArray)
  | .classOf h => do return .text (← askHeap vars h Heap.classOf).name
  | .arrayLength h => do return .number (← askHeap vars h Heap.arrayLength)
  | .arrayDescriptor h => do return .text (← askHeap vars h Heap.arrayDescriptor)
  | .readString h => do return ⟨.ofText? (← askHeap vars h Heap.readString), none⟩
  | .getField h className name => do
      let h ← evalHandle vars h
      let f ← declaredField className name
      return .ofValue (← ofExcept ((← heap).getField h f.decl))
  | .setField h className name v => do
      let f ← declaredField className name
      let v ← evalValue vars v
      Exec.setField (← evalHandle vars h) f.decl v
      return .nothing
  | .fieldByName h name => do
      return .value? (← askHeap vars h fun heap h => heap.fieldByName h name)
  | .loadElement h index => do
      return .value? (← askHeap vars h fun heap h => heap.loadElement h index)
  | .storeElement h index v => do
      let v ← evalValue vars v
      let h ← evalHandle vars h
      let (stored, heap) ← ofExcept ((← heap).storeElement h index v)
      setHeap heap
      return .flag stored
  | .cloneArray h => do
      let h ← evalHandle vars h
      return .ofValue (.array (← allocate (·.cloneArray h)))
  | .show v => do
      let v ← evalValue vars v
      return ⟨(← world).shown 4 v, none⟩
  | .resolveField className name => do
      let answer ← match ← Exec.resolveField className name with
        | some f => describeField f
        | none => pure .none
      return .list [answer, .number (← world).fieldWalks]
  | .resolveMethod ref => do
      let m := (← library).resolveMethod ref.className ref.name ref.descriptor
      return ⟨.ofText? (m.map MethodDecl.signature), none⟩
  | .findVirtual ref => do
      let cls ← findClass ref.className
      let m := (← library).findVirtual cls ref.name ref.descriptor
      return ⟨.ofText? (m.map MethodDecl.signature), none⟩
  | .selectSpecial current ref => do
      let cls ← findClass current
      let lib ← library
      match lib.resolveMethod ref.className ref.name ref.descriptor with
      | none => return .text "unresolved"
      | some resolved =>
          let m := lib.selectSpecial cls ref.className resolved
          return ⟨.ofText? (m.map MethodDecl.signature), none⟩
  | .isSubclass derived ancestor => do return .flag ((← library).isSubclass derived ancestor)
  | .isAssignable source target => do return .flag ((← library).isAssignable source target)
  | .instanceFields className => do
      let cls ← findClass className
      return .list (((← library).instanceFields cls).map fun f =>
        .list [.text f.className, .text f.name])
  | .describeClass className => do
      let cls ← findClass className
      let w ← world
      let state := (w.classStates[cls.id]?).getD cls.freshState
      return ⟨cls.described state (w.monitors.get (.ofClass cls.id)).count, none⟩
  | .librarySize => do
      let size := (← library).size
      return .list [.number size, .flag (size == 0)]
  | .register spec => do
      let cls ← Exec.register (← ofExcept spec.build)
      return .list [.text cls.name, .number (← library).size]
  | .initState className => do
      let cls ← findClass className
      return .text (← Exec.initState cls.id).name
  | .beginInit className => do
      let cls ← findClass className
      let action ← beginInitialisation cls.id
      return .list [.text (initActionName action), .text (← Exec.initState cls.id).name]
  | .finishInit className succeeded waited => finishInit className succeeded waited
  | .getStatic className name => do
      return .ofValue (← Exec.getStatic (← declaredField className name))
  | .setStatic className name v => do
      let v ← evalValue vars v
      Exec.setStatic (← declaredField className name) v
      return .nothing
  | .requestCollection => do
      modifyWorld fun w => { w with collector := w.collector.request }
      return .nothing
  | .collections => do return .number (← world).collector.runs

/-! ## Scripts -/

/-- The state of a machine in numbers: frames, operands of the current frame, the counter of the
run, the runs in progress, the pending exception, the instructions, and the live heap entries. -/
def status : Exec Answer := do
  let m ← get
  let t := m.thread
  return .list
    [.number t.frames.length, .number t.operandDepth, .number t.depth, .number t.level,
     .ofNat? (t.pending.map Handle.index), .number t.executed, .number m.world.heap.live]

/-- The number of lines that a report keeps. -/
def keptLines : Nat := 300

/-- A note as an answer. -/
def noteAnswer (n : Note) : Answer := .list [.text n.script, .text n.action, n.answer]

/-- The report of an action: its answer, the state that it left, and what was noted down and
reported meanwhile. -/
def report (answer : Answer) : Exec Answer := do
  let status ← status
  let w ← world
  let notes := w.notes.toList.map noteAnswer
  let lines := (w.events.toList.take keptLines).map fun e => Answer.text e.line
  let notes := if notes.isEmpty then [] else [("native", Answer.list notes)]
  let lines := if lines.isEmpty then [] else [("log", Answer.list lines)]
  return .record ([("r", answer), ("st", status)] ++ notes ++ lines)

/-- Whether a script skips an action. -/
def skips (vars : Variables) (step : Step) : Bool :=
  step.onlyIf.any fun name => (vars.lookup name).isNone

/-- The variables after an action. -/
def saved (vars : Variables) (step : Step) (value : Option Value) : Variables :=
  match step.saveAs, value with
  | some name, some v => (name, v) :: vars
  | _, _ => vars

/-- Forgets what was noted down and reported. -/
def clearRecords : Exec Unit := modifyWorld fun w => { w with notes := #[], events := #[] }

mutual

/-- Performs an action. -/
def perform (re : Reentry) (vars : Variables) : Action → Exec Reply
  | .inThread steps => do
      let m ← get
      let token ← issueToken
      modifyWorld fun w => { w with threads := w.threads + 1 }
      modifyThread fun _ => { id := m.world.threads, token }
      let (_, reports) ← runSteps re [] steps
      modify fun after =>
        { after with
          thread := m.thread
          world := { after.world with notes := m.world.notes, events := m.world.events } }
      return .list reports
  | action => performHere re vars action

/-- Performs the actions of a script in order and reports each of them. -/
def runSteps (re : Reentry) (vars : Variables) : List Step → Exec (Variables × List Answer)
  | [] => return (vars, [])
  | step :: steps => do
      clearRecords
      let (vars, answer) ← runStep re vars step
      let first ← report answer
      let (vars, rest) ← runSteps re vars steps
      return (vars, first :: rest)

/-- Performs an action of a script; a fault is its answer. -/
def runStep (re : Reentry) (vars : Variables) : Step → Exec (Variables × Answer)
  | ⟨label, action, saveAs, onlyIf, tolerant⟩ => do
      let step : Step := ⟨label, action, saveAs, onlyIf, tolerant⟩
      if skips vars step then return (vars, .text "skipped")
      else
        match ← attempt (perform re vars action) with
        | .ok reply => return (saved vars step reply.value, reply.answer)
        | .error f => return (vars, .fault f)

end

/-- Takes the actions of a native's script in order and notes down their answers. -/
def runNative (name : String) (re : Reentry) : Variables → List Step → Exec Unit
  | _, [] => return
  | vars, step :: steps => do
      let note (answer : Answer) : Exec Unit :=
        modifyWorld fun w => { w with notes := w.notes.push ⟨name, step.label, answer⟩ }
      if skips vars step then
        note (.text "skipped")
        runNative name re vars steps
      else
        match ← attempt (perform re vars step.action) with
        | .ok reply =>
            note reply.answer
            runNative name re (saved vars step reply.value) steps
        | .error f =>
            note (.fault f)
            if step.tolerant then runNative name re vars steps else fail f

/-- The native method of a script. -/
def native (name : String) (body : List Step) : NativeFn := fun re => runNative name re [] body

end JavaMachine.Script
