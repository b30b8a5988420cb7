import JavaMachine.Text.Quoted

/-!
# Faults

A fault is a failure of the host side: the machine, or the method body it was given, is broken and
execution cannot go on.  Exceptions that a guest program can catch are never faults, they are
objects of the heap that a thread holds as pending.  Every fault is a cause with its data, and
`Fault.message` is the one place that words it.
-/

namespace JavaMachine

/-- Why the machine cannot go on. -/
inductive Fault where
  /-- The current frame has fewer operands than the operation takes. -/
  | stackUnderflow
  /-- A value of another kind than the operation takes. -/
  | typeMismatch (expected found : String)
  /-- A byte that is no instruction. -/
  | unknownOpcode (opcode : UInt8) (pc : Nat)
  /-- An instruction that the machine does not run. -/
  | unsupportedOpcode (mnemonic : String) (pc : Nat)
  /-- A read or a jump outside the code. -/
  | codeExhausted (pc length : Nat)
  /-- A constant pool entry of another kind than the instruction takes. -/
  | invalidConstant (index : UInt16) (expected : String)
  /-- A local variable slot that the frame does not have. -/
  | localOutOfRange (index slots : Nat)
  /-- The thread has no frame. -/
  | noActiveFrame
  /-- A text that is no descriptor. -/
  | invalidDescriptor (text : String)
  /-- A method that nothing declares. -/
  | unresolvedMethod (className name descriptor : String)
  /-- A field that nothing declares. -/
  | unresolvedField (className name : String)
  /-- A class that the library does not have. -/
  | classNotFound (name : String)
  /-- A handle that names no live heap entry. -/
  | invalidHandle (index : Nat)
  /-- The heap is full. -/
  | outOfMemory (capacity : Nat)
  /-- An array that is too long. -/
  | arrayAllocation (length : Nat)
  /-- A configuration text that does not describe a configuration. -/
  | invalidConfig
  /-- A depth counter was needed and no run has opened one. -/
  | depthStackEmpty
  /-- The depth counter of the run is already zero. -/
  | depthUnderflow
  /-- A call with another number of arguments than the method takes. -/
  | argumentCount (signature : String) (takes given : Nat)
  /-- An interface call whose receiver is an array. -/
  | interfaceCallOnArray (className name : String)
  /-- A virtual call, other than a clone, whose receiver is an array. -/
  | virtualCallOnArray (className name descriptor : String)
  /-- A primitive array instruction whose type code is not assigned. -/
  | invalidElementCode (code : UInt8)
  /-- A multi-dimensional array whose descriptor has fewer dimensions than asked for. -/
  | invalidDimensions (dimensions : Nat) (descriptor : String)
  /-- An array became shorter between the bounds check and the load. -/
  | arrayShrank
  /-- A table switch whose low bound is above its high bound. -/
  | switchBounds (low high : Int32)
  /-- A lookup switch with a negative number of pairs. -/
  | switchPairs (pairs : Int32)
  deriving Repr, DecidableEq

namespace Fault

/-- The wording of a fault. -/
def message : Fault → String
  | stackUnderflow => "operand stack underflow"
  | typeMismatch expected found => s!"type mismatch: expected {expected}, found {found}"
  | unknownOpcode opcode pc =>
      "unknown opcode 0x" ++ Text.hexPadded 2 opcode.toNat ++ s!" at pc {pc}"
  | unsupportedOpcode mnemonic pc => s!"unsupported opcode {mnemonic} at pc {pc}"
  | codeExhausted pc length => s!"code segment exhausted at pc {pc} (length {length})"
  | invalidConstant index expected => s!"constant pool entry {index} is not a {expected}"
  | localOutOfRange index slots => s!"local variable {index} out of range (max {slots})"
  | noActiveFrame => "no active frame"
  | invalidDescriptor text => "invalid descriptor " ++ Text.quote text
  | unresolvedMethod className name descriptor =>
      s!"unresolved method {className}.{name}{descriptor}"
  | unresolvedField className name => s!"unresolved field {className}.{name}"
  | classNotFound name => s!"class {name} is not available to the class library"
  | invalidHandle index => s!"dangling heap handle {index}"
  | outOfMemory capacity => s!"heap exhausted ({capacity} entries)"
  | arrayAllocation length => s!"cannot allocate an array of {length} elements"
  | invalidConfig => "invalid state: invalid engine config"
  | depthStackEmpty => "invalid state: call-stack depth stack is empty"
  | depthUnderflow => "invalid state: call-stack depth underflow"
  | argumentCount signature takes given =>
      s!"invalid state: {signature} takes {takes} arguments, {given} given"
  | interfaceCallOnArray className name =>
      s!"invalid state: invokeinterface {className}.{name} on an array"
  | virtualCallOnArray className name descriptor =>
      s!"invalid state: invokevirtual {className}.{name}{descriptor} on an array"
  | invalidElementCode code => s!"invalid state: newarray with atype {code}"
  | invalidDimensions dimensions descriptor =>
      s!"invalid state: multianewarray of {dimensions} dimensions for {descriptor}"
  | arrayShrank => "invalid state: array shrank under a load"
  | switchBounds low high => s!"invalid state: tableswitch with low {low} above high {high}"
  | switchPairs pairs => s!"invalid state: lookupswitch with {pairs} pairs"

/-- The faults that a guest program sees as its memory error: a full heap and an array that is
too long. -/
def isOutOfMemory : Fault → Bool
  | outOfMemory _ | arrayAllocation _ => true
  | _ => false

end Fault

end JavaMachine
