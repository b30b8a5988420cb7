import JavaMachine.ElementKind

/-!
# Instructions

An instruction starts with one byte, its opcode.  The assigned opcodes form a table in the order
of their bytes, `0x00` to `0xca`, with two more at the end of the range.  Each row has the
identifier and the mnemonic of the instruction and its `Opcode`, which says what the instruction
does: instructions that differ only in a type, a constant or a slot share a constructor.  A byte
without a row is an unknown instruction, so that decoding is total.
-/

namespace JavaMachine

/-- The kinds of values that local variables are loaded and stored as. -/
inductive LocalKind where
  | int
  | long
  | float
  | double
  | reference
  deriving Repr, DecidableEq

/-- The kinds of numbers. -/
inductive NumberKind where
  | int
  | long
  | float
  | double
  deriving Repr, DecidableEq

/-- The kinds of integers. -/
inductive WordKind where
  | int
  | long
  deriving Repr, DecidableEq

/-- The kinds that an int is narrowed to. -/
inductive NarrowKind where
  | byte
  | char
  | short
  deriving Repr, DecidableEq

/-- The binary operations on numbers. -/
inductive ArithOp where
  | add
  | sub
  | mul
  | div
  | rem
  deriving Repr, DecidableEq

/-- The shifts of integers. -/
inductive ShiftOp where
  | left
  | right
  | unsignedRight
  deriving Repr, DecidableEq

/-- The operations on the bits of integers. -/
inductive BitOp where
  | and
  | or
  | xor
  deriving Repr, DecidableEq

/-- The conditions on two ints. -/
inductive Condition where
  | eq
  | ne
  | lt
  | ge
  | gt
  | le
  deriving Repr, DecidableEq

/-- Whether a condition holds of two ints. -/
def Condition.holds : Condition → Int32 → Int32 → Bool
  | eq, a, b => a == b
  | ne, a, b => a != b
  | lt, a, b => a < b
  | ge, a, b => b ≤ a
  | gt, a, b => b < a
  | le, a, b => a ≤ b

/-- What an instruction does. -/
inductive Opcode where
  | nop
  /-- Pushes a value that the opcode itself names. -/
  | push (v : Value)
  | pushByte
  | pushShort
  | loadConstant
  | loadConstantWide
  | loadLongConstant
  /-- Loads the local variable at the slot in the next byte. -/
  | load (kind : LocalKind)
  /-- Loads the local variable at the slot that the opcode itself names. -/
  | loadAt (kind : LocalKind) (slot : Nat)
  /-- Stores into the slot in the next byte. -/
  | store (kind : LocalKind)
  /-- Stores into the slot that the opcode itself names. -/
  | storeAt (kind : LocalKind) (slot : Nat)
  | arrayLoad (kind : ElementKind)
  | arrayStore (kind : ElementKind)
  /-- Drops operand words. -/
  | drop (words : Nat)
  /-- Copies the top operand words. -/
  | dup (words : Nat)
  /-- Copies the top operand words under the ones below them. -/
  | dupUnder (words under : Nat)
  | swap
  | arith (kind : NumberKind) (op : ArithOp)
  | neg (kind : NumberKind)
  | shift (kind : WordKind) (op : ShiftOp)
  | bitwise (kind : WordKind) (op : BitOp)
  | increment
  | convert (source target : NumberKind)
  | narrow (target : NarrowKind)
  | compareLong
  /-- Compares two floats; the argument is the answer when one is not a number. -/
  | compareFloat (unordered : Int32)
  /-- Compares two doubles; the argument is the answer when one is not a number. -/
  | compareDouble (unordered : Int32)
  /-- Branches on a condition between an int and zero. -/
  | ifZero (condition : Condition)
  /-- Branches on a condition between two ints. -/
  | ifCompare (condition : Condition)
  /-- Branches when two references are, or are not, the same. -/
  | ifSame (expected : Bool)
  /-- Branches when a reference is, or is not, null. -/
  | ifNull (expected : Bool)
  | goto
  | gotoWide
  | jsr
  | jsrWide
  | ret
  | tableSwitch
  | lookupSwitch
  | returnValue
  | returnVoid
  | getStatic
  | putStatic
  | getField
  | putField
  | invokeVirtual
  | invokeSpecial
  | invokeStatic
  | invokeInterface
  | newObject
  | newArray
  | newReferenceArray
  | newMultiArray
  | arrayLength
  | throwReference
  | checkCast
  | instanceOf
  | monitorEnter
  | monitorExit
  | wide
  /-- An assigned opcode that the machine does not run. -/
  | unsupported (mnemonic : String)
  /-- A byte that is no opcode. -/
  | unknown (byte : UInt8)

namespace Opcode

/-- Whether control can go elsewhere than to the next instruction of the method. -/
def isBranch : Opcode → Bool
  | ifZero _ | ifCompare _ | ifSame _ | ifNull _ => true
  | goto | gotoWide | jsr | jsrWide | ret | tableSwitch | lookupSwitch => true
  | _ => false

/-- A row of the instruction table. -/
structure Row where
  /-- The identifier of the instruction. -/
  identifier : String
  /-- The mnemonic of the instruction. -/
  mnemonic : String
  /-- What the instruction does. -/
  opcode : Opcode

/-- The rows of the opcodes `0x00` to `0xca`. -/
def table : List Row := [
  ⟨"NOP", "nop", .nop⟩,
  ⟨"AconstNull", "aconst_null", .push .null⟩,
  ⟨"IconstM1", "iconst_m1", .push (.int (-1))⟩,
  ⟨"Iconst0", "iconst_0", .push (.int 0)⟩,
  ⟨"Iconst1", "iconst_1", .push (.int 1)⟩,
  ⟨"Iconst2", "iconst_2", .push (.int 2)⟩,
  ⟨"Iconst3", "iconst_3", .push (.int 3)⟩,
  ⟨"Iconst4", "iconst_4", .push (.int 4)⟩,
  ⟨"Iconst5", "iconst_5", .push (.int 5)⟩,
  ⟨"Lconst0", "lconst_0", .push (.long 0)⟩,
  ⟨"Lconst1", "lconst_1", .push (.long 1)⟩,
  ⟨"Fconst0", "fconst_0", .push (.float 0.0)⟩,
  ⟨"Fconst1", "fconst_1", .push (.float 1.0)⟩,
  ⟨"Fconst2", "fconst_2", .push (.float 2.0)⟩,
  ⟨"Dconst0", "dconst_0", .push (.double 0.0)⟩,
  ⟨"Dconst1", "dconst_1", .push (.double 1.0)⟩,
  ⟨"BiPush", "bipush", .pushByte⟩,
  ⟨"SiPush", "sipush", .pushShort⟩,
  ⟨"Ldc", "ldc", .loadConstant⟩,
  ⟨"LdcW", "ldc_w", .loadConstantWide⟩,
  ⟨"Ldc2W", "ldc2_w", .loadLongConstant⟩,
  ⟨"ILoad", "iload", .load .int⟩,
  ⟨"LLoad", "lload", .load .long⟩,
  ⟨"FLoad", "fload", .load .float⟩,
  ⟨"DLoad", "dload", .load .double⟩,
  ⟨"ALoad", "aload", .load .reference⟩,
  ⟨"ILoad0", "iload_0", .loadAt .int 0⟩,
  ⟨"ILoad1", "iload_1", .loadAt .int 1⟩,
  ⟨"ILoad2", "iload_2", .loadAt .int 2⟩,
  ⟨"ILoad3", "iload_3", .loadAt .int 3⟩,
  ⟨"LLoad0", "lload_0", .loadAt .long 0⟩,
  ⟨"LLoad1", "lload_1", .loadAt .long 1⟩,
  ⟨"LLoad2", "lload_2", .loadAt .long 2⟩,
  ⟨"LLoad3", "lload_3", .loadAt .long 3⟩,
  ⟨"FLoad0", "fload_0", .loadAt .float 0⟩,
  ⟨"FLoad1", "fload_1", .loadAt .float 1⟩,
  ⟨"FLoad2", "fload_2", .loadAt .float 2⟩,
  ⟨"FLoad3", "fload_3", .loadAt .float 3⟩,
  ⟨"DLoad0", "dload_0", .loadAt .double 0⟩,
  ⟨"DLoad1", "dload_1", .loadAt .double 1⟩,
  ⟨"DLoad2", "dload_2", .loadAt .double 2⟩,
  ⟨"DLoad3", "dload_3", .loadAt .double 3⟩,
  ⟨"ALoad0", "aload_0", .loadAt .reference 0⟩,
  ⟨"ALoad1", "aload_1", .loadAt .reference 1⟩,
  ⟨"ALoad2", "aload_2", .loadAt .reference 2⟩,
  ⟨"ALoad3", "aload_3", .loadAt .reference 3⟩,
  ⟨"IALoad", "iaload", .arrayLoad .int⟩,
  ⟨"LALoad", "laload", .arrayLoad .long⟩,
  ⟨"FALoad", "faload", .arrayLoad .float⟩,
  ⟨"DALoad", "daload", .arrayLoad .double⟩,
  ⟨"AALoad", "aaload", .arrayLoad .reference⟩,
  ⟨"BALoad", "baload", .arrayLoad .byte⟩,
  ⟨"CALoad", "caload", .arrayLoad .char⟩,
  ⟨"SALoad", "saload", .arrayLoad .short⟩,
  ⟨"IStore", "istore", .store .int⟩,
  ⟨"LStore", "lstore", .store .long⟩,
  ⟨"FStore", "fstore", .store .float⟩,
  ⟨"DStore", "dstore", .store .double⟩,
  ⟨"AStore", "astore", .store .reference⟩,
  ⟨"IStore0", "istore_0", .storeAt .int 0⟩,
  ⟨"IStore1", "istore_1", .storeAt .int 1⟩,
  ⟨"IStore2", "istore_2", .storeAt .int 2⟩,
  ⟨"IStore3", "istore_3", .storeAt .int 3⟩,
  ⟨"LStore0", "lstore_0", .storeAt .long 0⟩,
  ⟨"LStore1", "lstore_1", .storeAt .long 1⟩,
  ⟨"LStore2", "lstore_2", .storeAt .long 2⟩,
  ⟨"LStore3", "lstore_3", .storeAt .long 3⟩,
  ⟨"FStore0", "fstore_0", .storeAt .float 0⟩,
  ⟨"FStore1", "fstore_1", .storeAt .float 1⟩,
  ⟨"FStore2", "fstore_2", .storeAt .float 2⟩,
  ⟨"FStore3", "fstore_3", .storeAt .float 3⟩,
  ⟨"DStore0", "dstore_0", .storeAt .double 0⟩,
  ⟨"DStore1", "dstore_1", .storeAt .double 1⟩,
  ⟨"DStore2", "dstore_2", .storeAt .double 2⟩,
  ⟨"DStore3", "dstore_3", .storeAt .double 3⟩,
  ⟨"AStore0", "astore_0", .storeAt .reference 0⟩,
  ⟨"AStore1", "astore_1", .storeAt .reference 1⟩,
  ⟨"AStore2", "astore_2", .storeAt .reference 2⟩,
  ⟨"AStore3", "astore_3", .storeAt .reference 3⟩,
  ⟨"IAStore", "iastore", .arrayStore .int⟩,
  ⟨"LAStore", "lastore", .arrayStore .long⟩,
  ⟨"FAStore", "fastore", .arrayStore .float⟩,
  ⟨"DAStore", "dastore", .arrayStore .double⟩,
  ⟨"AAStore", "aastore", .arrayStore .reference⟩,
  ⟨"BAStore", "bastore", .arrayStore .byte⟩,
  ⟨"CAStore", "castore", .arrayStore .char⟩,
  ⟨"SAStore", "sastore", .arrayStore .short⟩,
  ⟨"Pop", "pop", .drop 1⟩,
  ⟨"Pop2", "pop2", .drop 2⟩,
  ⟨"Dup", "dup", .dup 1⟩,
  ⟨"DupX1", "dup_x1", .dupUnder 1 1⟩,
  ⟨"DupX2", "dup_x2", .dupUnder 1 2⟩,
  ⟨"Dup2", "dup2", .dup 2⟩,
  ⟨"Dup2X1", "dup2_x1", .dupUnder 2 1⟩,
  ⟨"Dup2X2", "dup2_x2", .dupUnder 2 2⟩,
  ⟨"Swap", "swap", .swap⟩,
  ⟨"IAdd", "iadd", .arith .int .add⟩,
  ⟨"LAdd", "ladd", .arith .long .add⟩,
  ⟨"FAdd", "fadd", .arith .float .add⟩,
  ⟨"DAdd", "dadd", .arith .double .add⟩,
  ⟨"ISub", "isub", .arith .int .sub⟩,
  ⟨"LSub", "lsub", .arith .long .sub⟩,
  ⟨"FSub", "fsub", .arith .float .sub⟩,
  ⟨"DSub", "dsub", .arith .double .sub⟩,
  ⟨"IMul", "imul", .arith .int .mul⟩,
  ⟨"LMul", "lmul", .arith .long .mul⟩,
  ⟨"FMul", "fmul", .arith .float .mul⟩,
  ⟨"DMul", "dmul", .arith .double .mul⟩,
  ⟨"IDiv", "idiv", .arith .int .div⟩,
  ⟨"LDiv", "ldiv", .arith .long .div⟩,
  ⟨"FDiv", "fdiv", .arith .float .div⟩,
  ⟨"DDiv", "ddiv", .arith .double .div⟩,
  ⟨"IRem", "irem", .arith .int .rem⟩,
  ⟨"LRem", "lrem", .arith .long .rem⟩,
  ⟨"FRem", "frem", .arith .float .rem⟩,
  ⟨"DRem", "drem", .arith .double .rem⟩,
  ⟨"INeg", "ineg", .neg .int⟩,
  ⟨"LNeg", "lneg", .neg .long⟩,
  ⟨"FNeg", "fneg", .neg .float⟩,
  ⟨"DNeg", "dneg", .neg .double⟩,
  ⟨"IShl", "ishl", .shift .int .left⟩,
  ⟨"LShl", "lshl", .shift .long .left⟩,
  ⟨"IShr", "ishr", .shift .int .right⟩,
  ⟨"LShr", "lshr", .shift .long .right⟩,
  ⟨"IUShr", "iushr", .shift .int .unsignedRight⟩,
  ⟨"LUShr", "lushr", .shift .long .unsignedRight⟩,
  ⟨"IAnd", "iand", .bitwise .int .and⟩,
  ⟨"LAnd", "land", .bitwise .long .and⟩,
  ⟨"IOr", "ior", .bitwise .int .or⟩,
  ⟨"LOr", "lor", .bitwise .long .or⟩,
  ⟨"IXor", "ixor", .bitwise .int .xor⟩,
  ⟨"LXor", "lxor", .bitwise .long .xor⟩,
  ⟨"IInc", "iinc", .increment⟩,
  ⟨"I2L", "i2l", .convert .int .long⟩,
  ⟨"I2F", "i2f", .convert .int .float⟩,
  ⟨"I2D", "i2d", .convert .int .double⟩,
  ⟨"L2I", "l2i", .convert .long .int⟩,
  ⟨"L2F", "l2f", .convert .long .float⟩,
  ⟨"L2D", "l2d", .convert .long .double⟩,
  ⟨"F2I", "f2i", .convert .float .int⟩,
  ⟨"F2L", "f2l", .convert .float .long⟩,
  ⟨"F2D", "f2d", .convert .float .double⟩,
  ⟨"D2I", "d2i", .convert .double .int⟩,
  ⟨"D2L", "d2l", .convert .double .long⟩,
  ⟨"D2F", "d2f", .convert .double .float⟩,
  ⟨"I2B", "i2b", .narrow .byte⟩,
  ⟨"I2C", "i2c", .narrow .char⟩,
  ⟨"I2S", "i2s", .narrow .short⟩,
  ⟨"LCmp", "lcmp", .compareLong⟩,
  ⟨"FCmpL", "fcmpl", .compareFloat (-1)⟩,
  ⟨"FCmpG", "fcmpg", .compareFloat 1⟩,
  ⟨"DCmpL", "dcmpl", .compareDouble (-1)⟩,
  ⟨"DCmpG", "dcmpg", .compareDouble 1⟩,
  ⟨"IfEq", "ifeq", .ifZero .eq⟩,
  ⟨"IfNe", "ifne", .ifZero .ne⟩,
  ⟨"IfLt", "iflt", .ifZero .lt⟩,
  ⟨"IfGe", "ifge", .ifZero .ge⟩,
  ⟨"IfGt", "ifgt", .ifZero .gt⟩,
  ⟨"IfLe", "ifle", .ifZero .le⟩,
  ⟨"IfICmpEq", "if_icmpeq", .ifCompare .eq⟩,
  ⟨"IfICmpNe", "if_icmpne", .ifCompare .ne⟩,
  ⟨"IfICmpLt", "if_icmplt", .ifCompare .lt⟩,
  ⟨"IfICmpGe", "if_icmpge", .ifCompare .ge⟩,
  ⟨"IfICmpGt", "if_icmpgt", .ifCompare .gt⟩,
  ⟨"IfICmpLe", "if_icmple", .ifCompare .le⟩,
  ⟨"IfACmpEq", "if_acmpeq", .ifSame true⟩,
  ⟨"IfACmpNe", "if_acmpne", .ifSame false⟩,
  ⟨"Goto", "goto", .goto⟩,
  ⟨"Jsr", "jsr", .jsr⟩,
  ⟨"Ret", "ret", .ret⟩,
  ⟨"TableSwitch", "tableswitch", .tableSwitch⟩,
  ⟨"LookupSwitch", "lookupswitch", .lookupSwitch⟩,
  ⟨"IReturn", "ireturn", .returnValue⟩,
  ⟨"LReturn", "lreturn", .returnValue⟩,
  ⟨"FReturn", "freturn", .returnValue⟩,
  ⟨"DReturn", "dreturn", .returnValue⟩,
  ⟨"AReturn", "areturn", .returnValue⟩,
  ⟨"Return", "return", .returnVoid⟩,
  ⟨"GetStatic", "getstatic", .getStatic⟩,
  ⟨"PutStatic", "putstatic", .putStatic⟩,
  ⟨"GetField", "getfield", .getField⟩,
  ⟨"PutField", "putfield", .putField⟩,
  ⟨"InvokeVirtual", "invokevirtual", .invokeVirtual⟩,
  ⟨"InvokeSpecial", "invokespecial", .invokeSpecial⟩,
  ⟨"InvokeStatic", "invokestatic", .invokeStatic⟩,
  ⟨"InvokeInterface", "invokeinterface", .invokeInterface⟩,
  ⟨"InvokeDynamic", "invokedynamic", .unsupported "invokedynamic"⟩,
  ⟨"New", "new", .newObject⟩,
  ⟨"NewArray", "newarray", .newArray⟩,
  ⟨"ANewArray", "anewarray", .newReferenceArray⟩,
  ⟨"ArrayLength", "arraylength", .arrayLength⟩,
  ⟨"AThrow", "athrow", .throwReference⟩,
  ⟨"CheckCast", "checkcast", .checkCast⟩,
  ⟨"InstanceOf", "instanceof", .instanceOf⟩,
  ⟨"MonitorEnter", "monitorenter", .monitorEnter⟩,
  ⟨"MonitorExit", "monitorexit", .monitorExit⟩,
  ⟨"Wide", "wide", .wide⟩,
  ⟨"MultiANewArray", "multianewarray", .newMultiArray⟩,
  ⟨"IfNull", "ifnull", .ifNull true⟩,
  ⟨"IfNonNull", "ifnonnull", .ifNull false⟩,
  ⟨"GotoW", "goto_w", .gotoWide⟩,
  ⟨"JsrW", "jsr_w", .jsrWide⟩,
  ⟨"Breakpoint", "breakpoint", .unsupported "breakpoint"⟩]

/-- The row of a byte, if the byte is assigned. -/
def row? (byte : UInt8) : Option Row :=
  match byte with
  | 0xfe => some ⟨"ImpDep1", "impdep1", .unsupported "impdep1"⟩
  | 0xff => some ⟨"ImpDep2", "impdep2", .unsupported "impdep2"⟩
  | _ => table[byte.toNat]?

/-- The instruction of a byte. -/
def ofByte (byte : UInt8) : Opcode := ((row? byte).map Row.opcode).getD (.unknown byte)

/-- The mnemonic of a byte. -/
def mnemonicOf (byte : UInt8) : String := ((row? byte).map Row.mnemonic).getD "<unknown>"

/-- The identifier of a byte. -/
def identifierOf (byte : UInt8) : String :=
  ((row? byte).map Row.identifier).getD s!"Unknown({byte})"

end Opcode

end JavaMachine
