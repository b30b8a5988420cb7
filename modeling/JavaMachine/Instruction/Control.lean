import JavaMachine.Machine.Activation
import JavaMachine.Opcode

/-!
# Branches

A branch is relative to the address of its instruction.  A subroutine jump pushes the address
behind it, and the matching return takes that address from a local variable.  A switch aligns its
operands to a multiple of four and chooses its offset by a table of consecutive keys or by a list
of pairs.
-/

namespace JavaMachine.Exec

/-- Branches relative to the instruction. -/
def branch (offset : Int32) : Exec Unit := moveFrame (·.branch offset)

/-- Reads an offset, then branches by it if the condition holds. -/
def branchIf (condition : Exec Bool) : Exec Unit := do
  let offset ← readI16
  if ← condition then branch offset.toInt32

/-- Pops two ints and compares them. -/
def popCompare (c : Condition) : Exec Bool := do
  let b ← popInt
  let a ← popInt
  return c.holds a b

/-- Pops two references and tells whether they are the same. -/
def popSame : Exec Bool := do
  let b ← ofExcept (← pop).asReference
  let a ← ofExcept (← pop).asReference
  return a.sameReference b

/-- Pops a reference and tells whether it is null. -/
def popNull : Exec Bool := do return (← ofExcept (← pop).asReference).isNull

/-- Branches to a subroutine and pushes the address behind the instruction. -/
def jumpSubroutine (offset : Int32) : Exec Unit := do
  let returnPc := (← frame).pc
  branch offset
  moveFrame fun f => .ok (f.issue returnPc)
  push (.returnAddress returnPc)

/-- Goes on at the address in a local variable. -/
def returnSubroutine (slot : Nat) : Exec Unit := do
  let v ← ofExcept ((← frame).getLocal slot)
  let target ← ofExcept v.asReturnAddress
  moveFrame (·.jump target)

/-- Moves behind the padding of a switch. -/
def skipPadding : Exec Unit := moveFrame fun f => f.advance (switchPadding f.instructionPc)

/-- Branches by the offset that a table has for a key. -/
def tableSwitch : Exec Unit := do
  let key ← popInt
  skipPadding
  let otherwise ← readI32
  let low ← readI32
  let high ← readI32
  if high < low then fail (.switchBounds low high)
  else if key < low || high < key then branch otherwise
  else
    moveFrame (·.advance (4 * (key.toInt - low.toInt).toNat))
    branch (← readI32)

/-- Branches by the offset of the first pair of a key, among so many pairs. -/
def searchPairs (key otherwise : Int32) : Nat → Exec Unit
  | 0 => branch otherwise
  | n + 1 => do
      let candidate ← readI32
      let offset ← readI32
      if candidate = key then branch offset else searchPairs key otherwise n

/-- Branches by the offset that a list of pairs has for a key. -/
def lookupSwitch : Exec Unit := do
  let key ← popInt
  skipPadding
  let otherwise ← readI32
  let pairs ← readI32
  if pairs < 0 then fail (.switchPairs pairs)
  else searchPairs key otherwise pairs.toInt.toNat

end JavaMachine.Exec
