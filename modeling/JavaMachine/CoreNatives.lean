import JavaMachine.Instruction.Objects

/-!
# Core natives

The natives that the machine brings along: the identity hash of an object, the name of a class,
copying between arrays, and the group method that uncaught exceptions are delivered to by default,
which reports them.
-/

namespace JavaMachine.Exec

/-- Raises the exception of a null reference. -/
def raiseNull : Exec Unit := raise Throwable.nullPointerException none

/-- Replaces an object by its identity hash: its handle, which it keeps as long as it lives, and
for a class its place in the order of registration. -/
def hashCode : Exec Unit := do
  match ← pop with
  | .classRef c => push (.int (.ofNat c.id))
  | v =>
      match ← ofExcept v.asHandle with
      | some h => push (.int (.ofNat h.index))
      | none => raiseNull

/-- The name of a class with dots between the parts. -/
def dottedName (c : ClassRef) : String := c.name.map fun ch => if ch == '/' then '.' else ch

/-- Replaces a class by its name. -/
def getName : Exec Unit := do
  match ← pop with
  | .classRef c =>
      match ← orOutOfMemory (newString (dottedName c)) with
      | some h => push (.object h)
      | none => pure ()
  | .null => raiseNull
  | v => fail (v.mismatch "class")

/-! ## Copying between arrays -/

/-- The number of leading elements that fit into an array, and the type of the first that does
not. -/
def fitting (descriptor : String) : List Value → Nat → Exec (Nat × Option String)
  | [], n => return (n, none)
  | v :: rest, n => do
      match ← misfit descriptor v with
      | some source => return (n, some source)
      | none => fitting descriptor rest (n + 1)

/-- Replaces elements of an array from a place on. -/
def overwrite (target : Array Value) (place : Nat) : List Value → Array Value
  | [] => target
  | v :: rest => overwrite (target.setIfInBounds place v) (place + 1) rest

/-- Whether a range of a length from a place on lies in an array. -/
def inRange (size : Nat) (place length : Int32) : Bool :=
  0 ≤ place.toInt && 0 ≤ length.toInt && place.toInt + length.toInt ≤ size

/-- Writes the leading elements that fit into an array from a place on, and raises an exception
when there is one that does not. -/
def placeFitting (dest : Handle) (target : ArrayEntry) (place : Nat) (moved : List Value) :
    Nat × Option String → Exec Unit
  | (count, refused) => do
      let elements := overwrite target.elements place (moved.take count)
      modifyWorld fun w =>
        { w with heap := w.heap.replace dest (.array { target with elements }) }
      match refused with
      | some source => raiseMisfit source target.descriptor
      | none => pure ()

/-- Copies elements between two arrays of one kind as if all at once.  References that do not fit
end the copy with an exception, after the elements in front of them. -/
def copyElements (src dest : Handle) (srcPlace destPlace length : Int32) : Exec Unit := do
  let a ← ofExcept ((← heap).array src)
  let b ← ofExcept ((← heap).array dest)
  if a.kind ≠ b.kind then
    raise Throwable.arrayStoreException (some s!"{a.descriptor} copied into {b.descriptor}")
  else if !inRange a.elements.size srcPlace length || !inRange b.elements.size destPlace length then
    raise Throwable.arrayIndexOutOfBoundsException none
  else
    let start := srcPlace.toInt.toNat
    let moved := (a.elements.extract start (start + length.toInt.toNat)).toList
    let checked := a.kind = .reference ∧ !(← library).isAssignable a.descriptor b.descriptor
    let fit ← if checked then fitting b.descriptor moved 0 else pure (moved.length, none)
    placeFitting dest b destPlace.toInt.toNat moved fit

/-- Copies elements from one array to another.  The arguments are the source, a place in it, the
target, a place in it, and a length. -/
def arrayCopy : Exec Unit := do
  let length ← popInt
  let destPlace ← popInt
  let dest ← ofExcept (← pop).asHandle
  let srcPlace ← popInt
  let src ← ofExcept (← pop).asHandle
  match src, dest with
  | some src, some dest =>
      let fromArray ← ofExcept ((← heap).isArray src)
      let toArray ← if fromArray then ofExcept ((← heap).isArray dest) else pure false
      if fromArray && toArray then copyElements src dest srcPlace destPlace length
      else raise Throwable.arrayStoreException none
  | _, _ => raiseNull

/-- Reports an uncaught exception. -/
def reportUncaught : Exec Unit := do
  let throwable ← ofExcept (← pop).asHandle
  discard pop
  discard pop
  match throwable with
  | some h => report (.uncaught (← ofExcept ((← heap).classOf h)).name)
  | none => report (.uncaught "null")

end JavaMachine.Exec

namespace JavaMachine

/-- The natives that the machine brings along. -/
def coreNatives : Natives :=
  [("java/lang/Object.hashCode()I", fun _ => Exec.hashCode),
   ("java/lang/Class.getName()Ljava/lang/String;", fun _ => Exec.getName),
   ("java/lang/System.arraycopy(Ljava/lang/Object;ILjava/lang/Object;II)V",
    fun _ => Exec.arrayCopy),
   ("java/lang/ThreadGroup.uncaughtException(Ljava/lang/Thread;Ljava/lang/Throwable;)V",
    fun _ => Exec.reportUncaught)]

end JavaMachine
