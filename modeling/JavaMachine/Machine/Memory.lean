import JavaMachine.Machine.Basic
import JavaMachine.Throwable

/-!
# Memory of a running machine

Allocation on the heap of a machine, with its reports; field references, which are searched for
once and remembered; strings; and exceptions that the machine raises itself.

Raising an exception never fails for lack of memory.  The memory error is made past the capacity
of the heap, any other exception turns into the memory error when it cannot be made, and it goes
without its message when only that cannot be made.
-/

namespace JavaMachine.Exec

/-! ## Allocation -/

/-- Counts a refused allocation. -/
def countRefusal (f : Fault) : Exec Unit :=
  modifyWorld fun w => { w with refusals := w.refusals + if f.isOutOfMemory then 1 else 0 }

/-- Runs a computation without counting the allocations that are refused to it. -/
def uncounted {α : Type} (x : Exec α) : Exec α := do
  let refusals := (← world).refusals
  let result ← attempt x
  modifyWorld fun w => { w with refusals }
  ofExcept result

/-- Counts a refused allocation and reports why it was refused. -/
def reportRefusal (f : Fault) : Exec Unit := do
  countRefusal f
  match f with
  | .outOfMemory capacity => report (.heapExhausted capacity)
  | .arrayAllocation length =>
      match (← heap).maxArrayLength with
      | some limit => if limit < length then report (.arrayTooLong length limit)
      | none => pure ()
  | _ => pure ()

/-- Makes a heap entry. -/
def allocate (f : Heap → Except Fault (Handle × Heap)) : Exec Handle := do
  match f (← heap) with
  | .ok (h, heap) => setHeap heap; return h
  | .error e => reportRefusal e; fail e

/-- Checks that an array of a length may be made. -/
def checkLength (length : Nat) : Exec Unit := do
  match (← heap).checkLength length with
  | .ok () => pure ()
  | .error e => reportRefusal e; fail e

/-- Makes an object of a class with its fields and those of its superclasses. -/
def newInstance (cls : LoadedClass) (reserved : Bool) : Exec Handle := do
  let fields := (← library).instanceFields cls
  allocate (·.allocateObject cls fields reserved)

/-! ## Fields and strings -/

/-- The field that a reference means.  It is searched for in the hierarchy once; afterwards the
same reference means the same field for ever. -/
def resolveField (className name : String) : Exec (Option FieldRef) := do
  match (← world).fieldMemo.lookup (className, name) with
  | some f => return some f
  | none =>
      modifyWorld fun w => { w with fieldWalks := w.fieldWalks + 1 }
      match (← library).findField className name with
      | none => return none
      | some f =>
          report (.resolvedField className name f.decl.className)
          modifyWorld fun w => { w with fieldMemo := ((className, name), f) :: w.fieldMemo }
          return some f

/-- Stores into a field of an object. -/
def setField (h : Handle) (f : FieldDecl) (v : Value) : Exec Unit := do
  let heap ← ofExcept ((← heap).setField h f v)
  modifyWorld fun w => { w with heap, lapses := w.lapses.leak v }

/-- Makes the array of the characters of a string.  Its length is not checked, but one that is too
long is counted. -/
def newCharacters (text : String) : Exec Handle := do
  let units := ((Text.units text).map Value.char).toArray
  let chars ← allocate (·.allocateArrayOf .char "[C" units)
  modifyWorld fun w => { w with lapses := w.lapses.stretch (w.heap.isTooLong units.size) }
  return chars

/-- Makes a string object: its characters first, then the object. -/
def newString (text : String) : Exec Handle := do
  let cls ← findClass stringClassName
  match ← resolveField stringClassName "value" with
  | none => fail (.unresolvedField stringClassName "value")
  | some field =>
      let chars ← newCharacters text
      let string ← newInstance cls false
      setField string field.decl (.array chars)
      return string

/-! ## Raising exceptions -/

/-- Raises the memory error, past the capacity of the heap. -/
def raiseOutOfMemory : Exec Unit := do
  report .raisingOutOfMemory
  let cls ← findClass Throwable.outOfMemoryError
  setPending (← newInstance cls true)

/-- The result of an allocation for the guest; a refusal raises the memory error. -/
def orOutOfMemory {α : Type} (x : Exec α) : Exec (Option α) := do
  match ← attempt x with
  | .ok a => return some a
  | .error f => if f.isOutOfMemory then raiseOutOfMemory; return none else fail f

/-- Puts a message into an exception, if its class has a field for one and there is memory for
it. -/
def attachMessage (exception : Handle) (className message : String) : Exec Unit := do
  match ← resolveField className "detailMessage" with
  | none => pure ()
  | some field =>
      match ← attempt (newString message) with
      | .ok text => setField exception field.decl (.object text)
      | .error f => if f.isOutOfMemory then pure () else fail f

/-- Makes an exception of a class the pending one.  Its constructor is not run. -/
def raise (className : String) (message : Option String) : Exec Unit := do
  if className == Throwable.outOfMemoryError then raiseOutOfMemory
  else
    report (.raising className (message.getD ""))
    let cls ← findClass className
    match ← orOutOfMemory (newInstance cls false) with
    | none => pure ()
    | some exception =>
        match message with
        | none => pure ()
        | some message => attachMessage exception className message
        setPending exception

end JavaMachine.Exec
