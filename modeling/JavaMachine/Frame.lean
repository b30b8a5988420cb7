import JavaMachine.Library
import JavaMachine.Monitor

/-!
# Frames

A frame is the activation of an interpreted method: the address of the next byte to decode, the
address of the instruction that runs, the local variables, and the monitors that leave with it.
Operands are not in the frame.  They lie on the thread's operand stack, and the frame knows where
its own begin.

Reads move the next address behind what was read and never leave the code: a read that does not
fit, and a jump to an address outside the code, are faults and change nothing.
-/

namespace JavaMachine

/-- The activation of an interpreted method. -/
structure Frame where
  /-- The class that declares the method. -/
  cls : LoadedClass
  /-- The method. -/
  method : MethodDecl
  /-- The address of the next byte to decode. -/
  pc : Nat := 0
  /-- The address of the instruction that runs. -/
  instructionPc : Nat := 0
  /-- The local variables. -/
  locals : Array Value
  /-- The number of operands below those of the frame. -/
  stackBase : Nat
  /-- The monitors that the frame holds, the one entered last first. -/
  monitors : List MonitorKey := []
  /-- The return addresses that the frame's own jumps to subroutines have pushed.  Nothing depends
  on them. -/
  issued : List Nat := []
  /-- The slots of those longs and doubles whose second slot was stored over, with something other
  than null.  Nothing depends on them. -/
  torn : List Nat := []

namespace Frame

/-- The length of the code. -/
def codeLength (f : Frame) : Nat := f.method.code.size

/-- Whether so many bytes are left. -/
def canRead (f : Frame) (count : Nat) : Bool := f.pc + count ≤ f.codeLength

/-- Moves to an address. -/
def jump (f : Frame) (target : Nat) : Except Fault Frame :=
  if target < f.codeLength then .ok { f with pc := target }
  else .error (.codeExhausted target f.codeLength)

/-- Moves relative to the instruction that runs. -/
def branch (f : Frame) (offset : Int32) : Except Fault Frame :=
  let target : Int := f.instructionPc + offset.toInt
  if target < 0 then .error (.codeExhausted 0 f.codeLength) else f.jump target.toNat

/-- Moves behind so many bytes. -/
def advance (f : Frame) (count : Nat) : Except Fault Frame :=
  if f.canRead count then .ok { f with pc := f.pc + count }
  else .error (.codeExhausted f.pc f.codeLength)

/-- The byte at an address of the code. -/
def byteAt (f : Frame) (address : Nat) : UInt8 := (f.method.code.data[address]?).getD 0

/-- Reads so many bytes as one number, the most significant first. -/
def readBytes (f : Frame) (count : Nat) : Except Fault (Nat × Frame) := do
  let next ← f.advance count
  let bytes := (List.range count).map fun i => f.byteAt (f.pc + i)
  return (bytes.foldl (fun n b => n * 256 + b.toNat) 0, next)

/-- Marks the next byte as the start of an instruction. -/
def beginInstruction (f : Frame) : Frame := { f with instructionPc := f.pc }

/-- Notes down a return address that is about to be pushed. -/
def issue (f : Frame) (pc : Nat) : Frame := { f with issued := pc :: f.issued }

/-- The local variable at a slot. -/
def getLocal (f : Frame) (index : Nat) : Except Fault Value :=
  match f.locals[index]? with
  | some v => .ok v
  | none => .error (.localOutOfRange index f.locals.size)

/-- Whether storing a value at a slot takes the second slot away from the long or the double in
front. -/
def tears (f : Frame) (index : Nat) (v : Value) : Bool :=
  !v.isNull && 0 < index && (f.locals[index - 1]?).any Value.isWide

/-- The longs and doubles without their second slot when a value was stored at a slot.  Those that
were stored over themselves are gone. -/
def tornBy (f : Frame) (index : Nat) (v : Value) : List Nat :=
  let left := f.torn.filter fun i => i < index || index + v.words ≤ i
  if f.tears index v then (index - 1) :: left else left

/-- Stores into the local variable at a slot.  A long or a double takes the slot behind it as
well, which then holds null.  What is in the slot in front stays there. -/
def setLocal (f : Frame) (index : Nat) (v : Value) : Except Fault Frame :=
  if f.locals.size < index + v.words then .error (.localOutOfRange index f.locals.size)
  else
    let cleared := if v.isWide then f.locals.setIfInBounds (index + 1) .null else f.locals
    .ok { f with locals := cleared.setIfInBounds index v, torn := f.tornBy index v }

/-- Puts arguments into slots from an index on. -/
def placeArgs (slots : Array Value) : Nat → List Value → Except Fault (Array Value)
  | _, [] => .ok slots
  | index, v :: rest =>
      if slots.size < index + v.words then .error (.localOutOfRange index slots.size)
      else placeArgs (slots.setIfInBounds index v) (index + v.words) rest

/-- The local variables of a call: its arguments from the first slot on, a long or a double in two
slots, and null everywhere else. -/
def localsOf (m : MethodDecl) (args : List Value) : Except Fault (Array Value) :=
  placeArgs (Array.replicate m.localSlots .null) 0 args

end Frame

/-- Bytes of padding behind a switch opcode, so that its operands start at a multiple of four. -/
def switchPadding (address : Nat) : Nat := (4 - (address + 1) % 4) % 4

end JavaMachine
