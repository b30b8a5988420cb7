import JavaMachine.Instruction.Call

/-!
# Constants, fields, objects and arrays

The instructions that load constants, that read and write fields and array elements, that make
objects and arrays, that test types, and that throw and synchronise.  Access through null raises
an exception, and so does an index out of bounds.  Nothing is written when an exception is raised.
-/

namespace JavaMachine.Exec

/-! ## Constants -/

/-- The string object of a literal: one for all equal literals, none when an exception was
raised. -/
def intern (text : String) : Exec (Option Handle) := do
  match (← world).interned.lookup text with
  | some h => return some h
  | none =>
      match ← orOutOfMemory (newString text) with
      | none => return none
      | some h =>
          modifyWorld fun w => { w with interned := (text, h) :: w.interned }
          return some h

/-- Pushes a constant of one word. -/
def loadConstant (index : UInt16) : Exec Unit := do
  match ← ofExcept ((← frame).cls.pool.entry index) with
  | .int v => push (.int v)
  | .float v => push (.float v)
  | .string text =>
      match ← intern text with
      | some h => push (.object h)
      | none => pure ()
  | .className name =>
      match ← resolveClass name with
      | some cls => push (.classRef cls.ref)
      | none => pure ()
  | _ => fail (.invalidConstant index "int, float, string or class constant")

/-- Pushes a constant of two words. -/
def loadLongConstant (index : UInt16) : Exec Unit := do
  match ← ofExcept ((← frame).cls.pool.entry index) with
  | .long v => push (.long v)
  | .double v => push (.double v)
  | _ => fail (.invalidConstant index "long or double constant")

/-- Reads a class reference. -/
def readClassName : Exec String := do
  let index ← readU16
  match ← ofExcept ((← frame).cls.pool.entry index) with
  | .className name => return name
  | _ => fail (.invalidConstant index "class reference")

/-- Reads a field reference. -/
def readFieldRef : Exec MemberRef := do
  let index ← readU16
  match ← ofExcept ((← frame).cls.pool.entry index) with
  | .field ref => return ref
  | _ => fail (.invalidConstant index "field reference")

/-! ## Fields -/

/-- The field that a reference means; an exception is raised when its class or the field is
missing. -/
def resolveFieldRef (ref : MemberRef) : Exec (Option FieldRef) := do
  match ← resolveClass ref.className with
  | none => return none
  | some _ =>
      match ← resolveField ref.className ref.name with
      | some f => return some f
      | none =>
          raise Throwable.noSuchFieldError (some ref.path)
          return none

/-- The field that the instruction names, which has to be static or not; an exception is raised
when it is not so. -/
def readField (static : Bool) : Exec (Option FieldRef) := do
  match ← resolveFieldRef (← readFieldRef) with
  | none => return none
  | some f =>
      if f.decl.flags.isStatic = static then return some f
      else
        raise Throwable.incompatibleClassChangeError (some f.decl.path)
        return none

/-- The static field that the instruction names, after its class is brought into use. -/
def readStaticField (host : Host) : Exec (Option FieldRef) := do
  match ← readField true with
  | none => return none
  | some f =>
      let cls ← findClass f.decl.className
      if ← ensureInitialised host cls then return some f else return none

/-- Pushes what a static field holds. -/
def getStaticField (host : Host) : Exec Unit := do
  match ← readStaticField host with
  | some f =>
      useClass f.owner.id
      push (← getStatic f)
  | none => pure ()

/-- Pops a value into a static field. -/
def putStaticField (host : Host) : Exec Unit := do
  match ← readStaticField host with
  | some f =>
      let v ← ofExcept ((← pop).coerceTo f.decl.type)
      useClass f.owner.id
      setStatic f v
  | none => pure ()

/-- Pushes what a field of an object holds. -/
def getInstanceField : Exec Unit := do
  match ← readField false with
  | none => pure ()
  | some f =>
      match ← pop with
      | .null => raise Throwable.nullPointerException none
      | .object h => push (← ofExcept ((← heap).getField h f.decl))
      | v => fail (v.mismatch "object")

/-- Pops a value into a field of an object. -/
def putInstanceField : Exec Unit := do
  match ← readField false with
  | none => pure ()
  | some f =>
      let v ← ofExcept ((← pop).coerceTo f.decl.type)
      match ← pop with
      | .null => raise Throwable.nullPointerException none
      | .object h => setField h f.decl v
      | other => fail (other.mismatch "object")

/-! ## New objects and arrays -/

/-- Makes an object of a class and pushes it. -/
def newObject (host : Host) : Exec Unit := do
  let name ← readClassName
  match ← resolveClass name with
  | none => pure ()
  | some cls =>
      if cls.isUninstantiable then raise Throwable.instantiationError (some name)
      else if ← ensureInitialised host cls then
        useClass cls.id
        match ← orOutOfMemory (newInstance cls false) with
        | some h => push (.object h)
        | none => pure ()

/-- Raises the exception of a negative array length. -/
def raiseNegativeSize (count : Int32) : Exec Unit :=
  raise Throwable.negativeArraySizeException (some (toString count))

/-- Makes an array of a length and pushes it. -/
def pushNewArray (kind : ElementKind) (descriptor : String) (count : Int32) : Exec Unit := do
  if count < 0 then raiseNegativeSize count
  else
    let length := count.toInt.toNat
    match ← orOutOfMemory (allocate (·.allocateArray kind descriptor length)) with
    | some h => push (.array h)
    | none => pure ()

/-- Makes an array of a primitive type and pushes it. -/
def newArray : Exec Unit := do
  let code ← readU8
  match ElementKind.ofCode? code with
  | none => fail (.invalidElementCode code)
  | some kind => pushNewArray kind ("[" ++ kind.descriptor) (← popInt)

/-- Makes an array of references and pushes it. -/
def newReferenceArray : Exec Unit := do
  let name ← readClassName
  let count ← popInt
  if name.startsWith "[" then pushNewArray .reference ("[" ++ name) count
  else
    match ← resolveClass name with
    | none => pure ()
    | some _ => pushNewArray .reference ("[L" ++ name ++ ";") count

/-- Repeats a computation and collects its results in order. -/
def collectTimes {α : Type} (x : Exec α) : Nat → Array α → Exec (Array α)
  | 0, results => return results
  | n + 1, results => do collectTimes x n (results.push (← x))

/-- Makes an array of arrays for a descriptor and the lengths of its dimensions, the inner arrays
before the outer one. -/
def multiArray : List Char → List Nat → Exec Handle
  | descriptor, [] => allocate (·.allocateArray .reference (String.ofList descriptor) 0)
  | descriptor, [length] =>
      let kind := ElementKind.ofDescriptor (String.ofList descriptor.tail)
      allocate (·.allocateArray kind (String.ofList descriptor) length)
  | descriptor, length :: lengths => do
      checkLength length
      let inner ← collectTimes (multiArray descriptor.tail lengths) length #[]
      allocate (·.allocateArrayOf .reference (String.ofList descriptor) (inner.map .array))

/-- Makes an array of several dimensions and pushes it. -/
def newMultiArray : Exec Unit := do
  let descriptor ← readClassName
  let dimensions := (← readU8).toNat
  let depth := (descriptor.toList.takeWhile (· == '[')).length
  if dimensions = 0 ∨ depth < dimensions then fail (.invalidDimensions dimensions descriptor)
  else
    let counts := (← collectTimes popInt dimensions #[]).toList.reverse
    match counts.find? (· < 0) with
    | some count => raiseNegativeSize count
    | none =>
        let lengths := counts.map fun c => c.toInt.toNat
        match ← orOutOfMemory (multiArray descriptor.toList lengths) with
        | some h => push (.array h)
        | none => pure ()

/-! ## Array elements -/

/-- Pushes the length of an array. -/
def pushArrayLength : Exec Unit := do
  match ← pop with
  | .null => raise Throwable.nullPointerException none
  | .array h => push (.int (.ofNat (← ofExcept ((← heap).arrayLength h))))
  | v => fail (v.mismatch "array")

/-- Pops an array in which an index is in bounds; an exception is raised for null and for an index
out of bounds. -/
def popArrayAt (index : Int32) : Exec (Option Handle) := do
  match ← pop with
  | .null =>
      raise Throwable.nullPointerException none
      return none
  | .array h =>
      let length ← ofExcept ((← heap).arrayLength h)
      match Heap.place? length index with
      | some _ => return some h
      | none =>
          raise Throwable.arrayIndexOutOfBoundsException
            (some s!"Index {index} out of bounds for length {length}")
          return none
  | v => fail (v.mismatch "array")

/-- An element as an operand: the small integer kinds become ints. -/
def elementOperand (kind : ElementKind) (v : Value) : Except Fault Value :=
  match kind with
  | .boolean | .byte | .char | .short => v.asInt.map .int
  | _ => .ok v

/-- Pushes an element of an array. -/
def arrayLoad (kind : ElementKind) : Exec Unit := do
  let index ← popInt
  match ← popArrayAt index with
  | none => pure ()
  | some h =>
      match ← ofExcept ((← heap).loadElement h index) with
      | none => fail .arrayShrank
      | some v => push (← ofExcept (elementOperand kind v))

/-- The name of the type of a reference: the class of an object, the descriptor of an array. -/
def runtimeTypeName (v : Value) : Exec String := do
  match v with
  | .object h => return (← ofExcept ((← heap).classOf h)).name
  | .array h => ofExcept ((← heap).arrayDescriptor h)
  | .classRef _ => return classClassName
  | v => fail (v.mismatch "reference")

/-- The component type of an array descriptor, as a type name. -/
def componentType (descriptor : String) : String :=
  let component := descriptor.toList.tail
  String.ofList ((Library.componentName? component).getD component)

/-- An operand as an element of a primitive array.  The instruction for bytes also serves arrays
of booleans, which keep the low bit. -/
def primitiveElement (kind : ElementKind) (descriptor : String) (v : Value) :
    Except Fault Value :=
  match kind with
  | .int => v.asInt.map .int
  | .long => v.asLong.map .long
  | .float => v.asFloat.map .float
  | .double => v.asDouble.map .double
  | .char => v.asInt.map fun n => .char n.toUInt32.toUInt16
  | .short => v.asInt.map fun n => .short n.toInt16
  | .byte | .boolean =>
      match ElementKind.ofDescriptor (String.ofList descriptor.toList.tail) with
      | .boolean => v.asInt.map fun n => .bool (n &&& 1 != 0)
      | _ => v.asInt.map fun n => .byte n.toInt8
  | .reference => v.asReference

/-- The type name of a reference that does not fit into an array, none when it fits. -/
def misfit (descriptor : String) (v : Value) : Exec (Option String) := do
  if v.isNull then return none
  else
    let source ← runtimeTypeName v
    if (← library).isAssignable source (componentType descriptor) then return none
    else return some source

/-- Raises the exception of an element that does not fit into an array. -/
def raiseMisfit (source descriptor : String) : Exec Unit :=
  raise Throwable.arrayStoreException (some s!"{source} stored into {descriptor}")

/-- The number of crossings that a store counts for: one when an instruction for primitive elements
stores into an array of references. -/
def crossing (kind held : ElementKind) : Nat :=
  if kind ≠ .reference ∧ held = .reference then 1 else 0

/-- The number of mixings that a store counts for: one when the instruction is for elements of
another kind than those of the array.  The instruction for bytes also serves arrays of booleans. -/
def mixing (kind held : ElementKind) : Nat :=
  if kind = held ∨ kind = .byte ∧ held = .boolean then 0 else 1

/-- Stores an element into an array unless its type was refused. -/
def storeFitting (kind : ElementKind) (h : Handle) (index : Int32) (descriptor : String)
    (element : Value) : Option String → Exec Unit
  | some source => raiseMisfit source descriptor
  | none => do
      let a ← ofExcept ((← heap).array h)
      let (_, heap) ← ofExcept ((← heap).storeElement h index element)
      modifyWorld fun w =>
        { w with
          heap
          crossings := w.crossings + crossing kind a.kind
          lapses := w.lapses.mix (mixing kind a.kind) }

/-- Pops a value into an element of an array. -/
def arrayStore (kind : ElementKind) : Exec Unit := do
  let v ← pop
  let index ← popInt
  match ← popArrayAt index with
  | none => pure ()
  | some h =>
      let descriptor ← ofExcept ((← heap).arrayDescriptor h)
      let element ← ofExcept (primitiveElement kind descriptor v)
      let refused ← if kind = .reference then misfit descriptor element else pure none
      storeFitting kind h index descriptor element refused

/-! ## Types -/

/-- Reads the type of a test; an exception is raised when its class is missing.  Array types are
not looked up. -/
def readTypeName : Exec (Option String) := do
  let name ← readClassName
  if name.startsWith "[" then return some name
  else
    match ← resolveClass name with
    | some _ => return some name
    | none => return none

/-- Checks that the top operand is null or of a type. -/
def checkCast : Exec Unit := do
  match ← readTypeName with
  | none => pure ()
  | some target =>
      let v ← peek 1
      if v.isNull then pure ()
      else
        let source ← runtimeTypeName v
        if (← library).isAssignable source target then pure ()
        else
          raise Throwable.classCastException
            (some s!"class {source} cannot be cast to class {target}")

/-- Replaces the top operand by whether it is of a type. -/
def instanceOf : Exec Unit := do
  match ← readTypeName with
  | none => pure ()
  | some target =>
      let v ← pop
      let answer ← if v.isNull then pure false
        else do
          let source ← runtimeTypeName v
          pure ((← library).isAssignable source target)
      push (.int (if answer then 1 else 0))

/-! ## Throwing and synchronising -/

/-- Throws the top operand.  Its class is looked at only to report it. -/
def throwReference : Exec Unit := do
  match ← pop with
  | .null => raise Throwable.nullPointerException none
  | .object h =>
      if (← read).levels.contains .debug then
        report (.thrown (← ofExcept ((← heap).classOf h)).name)
      setPending h
  | v => fail (v.mismatch "throwable")

/-- Enters the monitor of the top operand; it is exited when the frame is left, at the latest. -/
def monitorEnter : Exec Unit := do
  match ← monitorOf (← pop) with
  | some k => pushMonitor k
  | none => raise Throwable.nullPointerException none

/-- Exits the monitor of the top operand; an exception is raised when the thread does not own
it. -/
def monitorExit : Exec Unit := do
  match ← monitorOf (← pop) with
  | none => raise Throwable.nullPointerException none
  | some k =>
      countStray k
      if ← popMonitor k then pure () else raise Throwable.illegalMonitorStateException none

end JavaMachine.Exec
