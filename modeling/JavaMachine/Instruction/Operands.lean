import JavaMachine.Machine.Activation
import JavaMachine.Opcode

/-!
# Operands and local variables

The instructions that move values between the local variables and the operand stack, and those
that shuffle operands.  A shuffle takes whole words: a long or a double is two words and is never
split.  An operand that a shuffle moves keeps the address that pushed it, a copy gets the address
of the shuffle.
-/

namespace JavaMachine.Exec

/-! ## Local variables -/

/-- A value as a kind of local variable, if it is of that kind. -/
def asLocal (kind : LocalKind) (v : Value) : Except Fault Value :=
  match kind with
  | .int => v.asInt.map .int
  | .long => v.asLong.map .long
  | .float => v.asFloat.map .float
  | .double => v.asDouble.map .double
  | .reference => v.asReference

/-- Pushes the local variable at a slot. -/
def loadLocal (kind : LocalKind) (slot : Nat) : Exec Unit := do
  let v ← ofExcept ((← frame).getLocal slot)
  push (← ofExcept (asLocal kind v))

/-- Pops a value into the local variable at a slot. -/
def storeLocal (kind : LocalKind) (slot : Nat) : Exec Unit := do
  let v ← ofExcept (asLocal kind (← pop))
  moveFrame (·.setLocal slot v)

/-- Adds to the int at a slot. -/
def incrementLocal (slot : Nat) (delta : Int32) : Exec Unit := do
  let v ← ofExcept ((← frame).getLocal slot)
  let n ← ofExcept v.asInt
  moveFrame (·.setLocal slot (.int (n + delta)))

/-! ## Shuffles -/

/-- Pops operands until so many words are taken, and answers them with the words taken too many.
The deepest operand comes first. -/
def takeWords : Nat → List Operand → Exec (List Operand × Nat)
  | 0, taken => return (taken, 0)
  | 1, taken => do
      let o ← popOperand
      return (o :: taken, o.value.words - 1)
  | n + 2, taken => do
      let o ← popOperand
      if o.value.isWide then takeWords n (o :: taken) else takeWords (n + 1) (o :: taken)

/-- Pops so many words, the deepest first. -/
def popWords (words : Nat) : Exec (List Operand) := do
  let (taken, excess) ← takeWords words []
  if excess = 0 then return taken
  else fail (.typeMismatch "category one value" "category two value")

/-- Pushes operands as they are. -/
def pushBack (os : List Operand) : Exec Unit := os.forM pushOperand

/-- Pushes copies of operands. -/
def pushCopies (os : List Operand) : Exec Unit := os.forM fun o => push o.value

/-- Copies the top words. -/
def duplicate (words : Nat) : Exec Unit := do
  let top ← popWords words
  pushCopies top
  pushBack top

/-- Copies the top words under the ones below them. -/
def duplicateUnder (words under : Nat) : Exec Unit := do
  let top ← popWords words
  let below ← popWords under
  pushCopies top
  pushBack below
  pushBack top

/-- Exchanges the two top words. -/
def swap : Exec Unit := do
  let top ← popWords 1
  let below ← popWords 1
  pushBack top
  pushBack below

end JavaMachine.Exec
