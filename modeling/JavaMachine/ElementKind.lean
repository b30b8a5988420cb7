import JavaMachine.Value

/-!
# Array elements

An array holds elements of one kind: one of the eight primitive kinds, or references.  The kind is
read off a type code or off the first character of the component's descriptor, and it says what a
new array is filled with.
-/

namespace JavaMachine

/-- The kinds of array elements. -/
inductive ElementKind where
  | boolean
  | char
  | float
  | double
  | byte
  | short
  | int
  | long
  | reference
  deriving Repr, DecidableEq

namespace ElementKind

/-- The element kind of a type code, the operand of the instruction that makes a primitive
array. -/
def ofCode? (code : UInt8) : Option ElementKind :=
  match code.toNat with
  | 4 => some boolean
  | 5 => some char
  | 6 => some float
  | 7 => some double
  | 8 => some byte
  | 9 => some short
  | 10 => some int
  | 11 => some long
  | _ => none

/-- The element kind of a component descriptor, by its first character. -/
def ofDescriptor (descriptor : String) : ElementKind :=
  match descriptor.toList.head? with
  | some 'Z' => boolean
  | some 'C' => char
  | some 'F' => float
  | some 'D' => double
  | some 'B' => byte
  | some 'S' => short
  | some 'I' => int
  | some 'J' => long
  | _ => reference

/-- The descriptor of an element kind; references are taken to the topmost class. -/
def descriptor : ElementKind → String
  | boolean => "Z"
  | char => "C"
  | float => "F"
  | double => "D"
  | byte => "B"
  | short => "S"
  | int => "I"
  | long => "J"
  | reference => "Ljava/lang/Object;"

/-- What a new array of the kind is filled with. -/
def defaultValue : ElementKind → Value
  | boolean => .bool false
  | char => .char 0
  | float => .float 0.0
  | double => .double 0.0
  | byte => .byte 0
  | short => .short 0
  | int => .int 0
  | long => .long 0
  | reference => .null

end ElementKind

end JavaMachine
