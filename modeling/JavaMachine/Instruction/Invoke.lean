import JavaMachine.Instruction.Call

/-!
# The instructions that call and return

Each call instruction reads a method reference, resolves it, selects the method that runs, and
invokes it.  A call on null raises an exception; so does a reference that means no method, a
static method where an instance method is needed or the other way round, and a selection that
finds no implementation.  An array answers only to its own copying.
-/

namespace JavaMachine.Exec

/-- Reads a method reference. -/
def readMethodRef : Exec MemberRef := do
  let index ← readU16
  match ← ofExcept ((← frame).cls.pool.entry index) with
  | .method ref | .interfaceMethod ref => return ref
  | _ => fail (.invalidConstant index "method reference")

/-- The method that a reference means; an exception is raised when there is none. -/
def resolveMethod (ref : MemberRef) : Exec (Option MethodDecl) := do
  match (← library).resolveMethod ref.className ref.name ref.descriptor with
  | some m => return some m
  | none =>
      raise Throwable.noSuchMethodError (some ref.signature)
      return none

/-- Raises the exception of a method that cannot be called this way. -/
def raiseIncompatible (message : String) : Exec Unit :=
  raise Throwable.incompatibleClassChangeError (some message)

/-- Invokes a method in the class that declares it. -/
def invokeDeclared (host : Host) (m : MethodDecl) : Exec Unit := do
  let cls ← declaringClass m
  discard (invoke host cls m)

/-! ## Static and special calls -/

/-- Calls a static method, after its class is brought into use. -/
def invokeStatic (host : Host) : Exec Unit := do
  let ref ← readMethodRef
  match ← resolveClass ref.className with
  | none => pure ()
  | some _ =>
      match ← resolveMethod ref with
      | none => pure ()
      | some m =>
          if !m.flags.isStatic || m.flags.isAbstract then raiseIncompatible m.signature
          else
            let cls ← declaringClass m
            if ← ensureInitialised host cls then
              useClass cls.id
              discard (invoke host cls m)

/-- Calls a constructor, a private method or a method of a superclass. -/
def invokeSpecial (host : Host) : Exec Unit := do
  let ref ← readMethodRef
  match ← resolveMethod ref with
  | none => pure ()
  | some resolved =>
      if resolved.flags.isStatic then raiseIncompatible resolved.signature
      else
        let current := (← frame).cls
        match (← library).selectSpecial current ref.className resolved with
        | none => raise Throwable.abstractMethodError (some resolved.signature)
        | some m =>
            if (← peek m.argCount).isNull then raise Throwable.nullPointerException none
            else invokeDeclared host m

/-! ## Calls that depend on the receiver -/

/-- The receiver of a call, under its arguments. -/
def receiver (ref : MemberRef) : Exec Value := do
  let type ← ofExcept (MethodType.parse ref.descriptor)
  peek (type.args.length + 1)

/-- The class that the search for a method starts at; an exception is raised for null. -/
def receiverClass (v : Value) : Exec (Option LoadedClass) := do
  match v with
  | .null =>
      raise Throwable.nullPointerException none
      return none
  | .object h => return some (← ofExcept ((← heap).classOf h))
  | .classRef _ => resolveClass classClassName
  | v => fail (v.mismatch "object")

/-- Invokes the method that the receiver's class has for a reference. -/
def dispatch (host : Host) (cls : LoadedClass) (ref : MemberRef) : Exec Unit := do
  match (← library).findVirtual cls ref.name ref.descriptor with
  | some m => invokeDeclared host m
  | none =>
      raise Throwable.abstractMethodError (some s!"{cls.name}.{ref.name}{ref.descriptor}")

/-- A call on an array, which can only copy it. -/
def invokeOnArray (h : Handle) (ref : MemberRef) : Exec Unit := do
  let onObject := ref.className == objectName || ref.className.startsWith "["
  let copies := ref.name == "clone" && ref.descriptor == "()Ljava/lang/Object;"
  if onObject && copies then
    discard pop
    match ← orOutOfMemory (allocate (·.cloneArray h)) with
    | some copy => push (.array copy)
    | none => pure ()
  else fail (.virtualCallOnArray ref.className ref.name ref.descriptor)

/-- Calls an instance method. -/
def invokeVirtual (host : Host) : Exec Unit := do
  let ref ← readMethodRef
  let v ← receiver ref
  match v with
  | .array h => invokeOnArray h ref
  | _ =>
      match ← receiverClass v with
      | none => pure ()
      | some cls =>
          match ← resolveMethod ref with
          | none => pure ()
          | some resolved =>
              if resolved.flags.isStatic then raiseIncompatible resolved.signature
              else if resolved.flags.isPrivate then invokeDeclared host resolved
              else dispatch host cls ref

/-- Calls a method of an interface.  Two more bytes follow the reference, which say nothing
new. -/
def invokeInterface (host : Host) : Exec Unit := do
  let ref ← readMethodRef
  discard readU8
  discard readU8
  let v ← receiver ref
  match v with
  | .array _ => fail (.interfaceCallOnArray ref.className ref.name)
  | _ =>
      match ← receiverClass v with
      | none => pure ()
      | some cls =>
          if (← library).isSubclass cls.name ref.className then dispatch host cls ref
          else raiseIncompatible s!"{cls.name} does not implement {ref.className}"

/-! ## Returning -/

/-- Leaves the current frame with a value or without. -/
def leave (v : Option Value) : Exec Flow := do
  discard popFrame
  v.forM hand
  if (← leaveDepth) = 0 then return .leave else return .next

/-- Returns the top operand as the declared result. -/
def returnValue : Exec Flow := do
  let m := (← frame).method
  let v ← ofExcept ((← pop).coerceTo m.type.result)
  leave (some v)

/-- Returns without a value. -/
def returnVoid : Exec Flow := do
  let m := (← frame).method
  let flow ← leave none
  if flow = .leave ∧ m.type.result ≠ .void then modifyThread ({ · with bare := true })
  return flow

end JavaMachine.Exec
