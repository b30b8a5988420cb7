import JavaMachine.Instruction.Arithmetic
import JavaMachine.Instruction.Control
import JavaMachine.Instruction.Invoke
import JavaMachine.Instruction.Objects

/-!
# One instruction

`perform` does what an opcode says, `fetch` reads the next opcode, and `step` does both.
-/

namespace JavaMachine.Exec

/-- Reads the slot of a local variable. -/
def readSlot : Exec Nat := return (← readU8).toNat

/-- Performs the instruction behind a wide mark: its slot, and an increment, take two bytes. -/
def performWide : Exec Unit := do
  let byte ← readU8
  let slot := (← readU16).toNat
  match Opcode.ofByte byte with
  | .load kind => loadLocal kind slot
  | .store kind => storeLocal kind slot
  | .ret => returnSubroutine slot
  | .increment => incrementLocal slot (← readI16).toInt32
  | _ => fail (.unknownOpcode byte (← frame).instructionPc)

/-- Performs an instruction that goes on with the next one. -/
def performPlain (host : Host) : Opcode → Exec Unit
  | .nop => pure ()
  | .push v => push v
  | .pushByte => do push (.int (← readI8).toInt32)
  | .pushShort => do push (.int (← readI16).toInt32)
  | .loadConstant => do loadConstant (← readU8).toUInt16
  | .loadConstantWide => do loadConstant (← readU16)
  | .loadLongConstant => do loadLongConstant (← readU16)
  | .load kind => do loadLocal kind (← readSlot)
  | .loadAt kind slot => loadLocal kind slot
  | .store kind => do storeLocal kind (← readSlot)
  | .storeAt kind slot => storeLocal kind slot
  | .arrayLoad kind => arrayLoad kind
  | .arrayStore kind => arrayStore kind
  | .drop words => discard (popWords words)
  | .dup words => duplicate words
  | .dupUnder words under => duplicateUnder words under
  | .swap => swap
  | .arith kind op => arith kind op
  | .neg kind => negate kind
  | .shift kind op => shift kind op
  | .bitwise kind op => bitwise kind op
  | .increment => do
      let slot ← readSlot
      incrementLocal slot (← readI8).toInt32
  | .convert source target => convert source target
  | .narrow target => narrow target
  | .compareLong => compareLongs
  | .compareFloat unordered => compareFloats unordered
  | .compareDouble unordered => compareDoubles unordered
  | .ifZero c => branchIf do return c.holds (← popInt) 0
  | .ifCompare c => branchIf (popCompare c)
  | .ifSame expected => branchIf do return (← popSame) == expected
  | .ifNull expected => branchIf do return (← popNull) == expected
  | .goto => do branch (← readI16).toInt32
  | .gotoWide => do branch (← readI32)
  | .jsr => do jumpSubroutine (← readI16).toInt32
  | .jsrWide => do jumpSubroutine (← readI32)
  | .ret => do returnSubroutine (← readSlot)
  | .tableSwitch => tableSwitch
  | .lookupSwitch => lookupSwitch
  | .returnValue | .returnVoid => pure ()
  | .getStatic => getStaticField host
  | .putStatic => putStaticField host
  | .getField => getInstanceField
  | .putField => putInstanceField
  | .invokeVirtual => invokeVirtual host
  | .invokeSpecial => invokeSpecial host
  | .invokeStatic => invokeStatic host
  | .invokeInterface => invokeInterface host
  | .newObject => newObject host
  | .newArray => newArray
  | .newReferenceArray => newReferenceArray
  | .newMultiArray => newMultiArray
  | .arrayLength => pushArrayLength
  | .throwReference => throwReference
  | .checkCast => checkCast
  | .instanceOf => instanceOf
  | .monitorEnter => monitorEnter
  | .monitorExit => monitorExit
  | .wide => performWide
  | .unsupported mnemonic => do fail (.unsupportedOpcode mnemonic (← frame).instructionPc)
  | .unknown byte => do fail (.unknownOpcode byte (← frame).instructionPc)

/-- Performs an instruction and tells whether the run goes on. -/
def perform (host : Host) (op : Opcode) : Exec Flow := do
  match op with
  | .returnValue => returnValue
  | .returnVoid => returnVoid
  | op =>
      performPlain host op
      return .next

/-- Fetches the byte of the next instruction. -/
def fetch : Exec UInt8 := do
  moveFrame fun f => .ok f.beginInstruction
  let byte ← readU8
  if (← read).config.traceOpcodes then
    let f ← frame
    report (.execute f.instructionPc (Opcode.mnemonicOf byte) f.method.signature)
  return byte

/-- Fetches the next instruction and performs it. -/
def step (host : Host) : Exec Flow := do
  perform host (Opcode.ofByte (← fetch))

end JavaMachine.Exec
