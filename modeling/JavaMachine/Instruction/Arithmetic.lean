import JavaMachine.Decimal.Remainder
import JavaMachine.Machine.Activation
import JavaMachine.Opcode

/-!
# Arithmetic

Integers wrap around.  Division of integers truncates and raises an exception by zero, and the
least integer divided by minus one is itself.  A shift takes its amount modulo the width.
Floating-point numbers follow their standard, with the remainder of the truncated quotient, and
their conversion to an integer saturates and takes what is not a number to zero.
-/

namespace JavaMachine.Exec

/-- Raises the exception of a division by zero. -/
def raiseDivisionByZero : Exec Unit :=
  raise Throwable.arithmeticException (some "/ by zero")

/-- The remainder of two floats. -/
def floatRemainder (a b : Float32) : Float32 :=
  .ofBits (Decimal.single.remainder a.toBits.toNat b.toBits.toNat).toUInt32

/-- The remainder of two doubles. -/
def doubleRemainder (a b : Float) : Float :=
  .ofBits (Decimal.double.remainder a.toBits.toNat b.toBits.toNat).toUInt64

/-- The result of an operation on ints, none for a division by zero. -/
def intResult? (op : ArithOp) (a b : Int32) : Option Int32 :=
  match op with
  | .add => some (a + b)
  | .sub => some (a - b)
  | .mul => some (a * b)
  | .div => if b = 0 then none else some (a / b)
  | .rem => if b = 0 then none else some (a % b)

/-- The result of an operation on longs, none for a division by zero. -/
def longResult? (op : ArithOp) (a b : Int64) : Option Int64 :=
  match op with
  | .add => some (a + b)
  | .sub => some (a - b)
  | .mul => some (a * b)
  | .div => if b = 0 then none else some (a / b)
  | .rem => if b = 0 then none else some (a % b)

/-- The result of an operation on floats. -/
def floatResult (op : ArithOp) (a b : Float32) : Float32 :=
  match op with
  | .add => a + b
  | .sub => a - b
  | .mul => a * b
  | .div => a / b
  | .rem => floatRemainder a b

/-- The result of an operation on doubles. -/
def doubleResult (op : ArithOp) (a b : Float) : Float :=
  match op with
  | .add => a + b
  | .sub => a - b
  | .mul => a * b
  | .div => a / b
  | .rem => doubleRemainder a b

/-- Pushes the result of an operation on two numbers. -/
def arith (kind : NumberKind) (op : ArithOp) : Exec Unit := do
  match kind with
  | .int =>
      let b ← popInt
      let a ← popInt
      match intResult? op a b with
      | some r => push (.int r)
      | none => raiseDivisionByZero
  | .long =>
      let b ← popLong
      let a ← popLong
      match longResult? op a b with
      | some r => push (.long r)
      | none => raiseDivisionByZero
  | .float =>
      let b ← popFloat
      let a ← popFloat
      push (.float (floatResult op a b))
  | .double =>
      let b ← popDouble
      let a ← popDouble
      push (.double (doubleResult op a b))

/-- Pushes the negation of a number. -/
def negate (kind : NumberKind) : Exec Unit := do
  match kind with
  | .int => push (.int (-(← popInt)))
  | .long => push (.long (-(← popLong)))
  | .float => push (.float (-(← popFloat)))
  | .double => push (.double (-(← popDouble)))

/-- An int shifted by the low five bits of an amount. -/
def shiftInt (op : ShiftOp) (a amount : Int32) : Int32 :=
  let n := amount &&& 0x1f
  match op with
  | .left => a <<< n
  | .right => a >>> n
  | .unsignedRight => (a.toUInt32 >>> n.toUInt32).toInt32

/-- A long shifted by the low six bits of an amount. -/
def shiftLong (op : ShiftOp) (a : Int64) (amount : Int32) : Int64 :=
  let n := (amount &&& 0x3f).toInt64
  match op with
  | .left => a <<< n
  | .right => a >>> n
  | .unsignedRight => (a.toUInt64 >>> n.toUInt64).toInt64

/-- Pushes an integer shifted by an int. -/
def shift (kind : WordKind) (op : ShiftOp) : Exec Unit := do
  let amount ← popInt
  match kind with
  | .int => push (.int (shiftInt op (← popInt) amount))
  | .long => push (.long (shiftLong op (← popLong) amount))

/-- Pushes the result of an operation on the bits of two integers. -/
def bitwise (kind : WordKind) (op : BitOp) : Exec Unit := do
  match kind with
  | .int =>
      let b ← popInt
      let a ← popInt
      push (.int (match op with | .and => a &&& b | .or => a ||| b | .xor => a ^^^ b))
  | .long =>
      let b ← popLong
      let a ← popLong
      push (.long (match op with | .and => a &&& b | .or => a ||| b | .xor => a ^^^ b))

/-- A value as another kind of number. -/
def converted (source target : NumberKind) (v : Value) : Except Fault Value :=
  match source with
  | .int => do
      let a ← v.asInt
      match target with
      | .int => return .int a
      | .long => return .long a.toInt64
      | .float => return .float a.toFloat32
      | .double => return .double a.toFloat
  | .long => do
      let a ← v.asLong
      match target with
      | .int => return .int a.toInt32
      | .long => return .long a
      | .float => return .float a.toFloat32
      | .double => return .double a.toFloat
  | .float => do
      let a ← v.asFloat
      match target with
      | .int => return .int a.toInt32
      | .long => return .long a.toInt64
      | .float => return .float a
      | .double => return .double a.toFloat
  | .double => do
      let a ← v.asDouble
      match target with
      | .int => return .int a.toInt32
      | .long => return .long a.toInt64
      | .float => return .float a.toFloat32
      | .double => return .double a

/-- Pushes a number as another kind of number. -/
def convert (source target : NumberKind) : Exec Unit := do
  push (← ofExcept (converted source target (← pop)))

/-- Pushes an int narrowed to a smaller kind. -/
def narrow (target : NarrowKind) : Exec Unit := do
  let a ← popInt
  match target with
  | .byte => push (.int (Value.narrowByte a))
  | .char => push (.int (Value.narrowChar a))
  | .short => push (.int (Value.narrowShort a))

/-- The sign of a comparison of two longs. -/
def compareLong (a b : Int64) : Int32 := if a < b then -1 else if a = b then 0 else 1

/-- Pushes the sign of a comparison of two longs. -/
def compareLongs : Exec Unit := do
  let b ← popLong
  let a ← popLong
  push (.int (compareLong a b))

/-- Pushes the sign of a comparison of two floats. -/
def compareFloats (unordered : Int32) : Exec Unit := do
  let b ← popFloat
  let a ← popFloat
  push (.int (Value.compareFloat a b unordered))

/-- Pushes the sign of a comparison of two doubles. -/
def compareDoubles (unordered : Int32) : Exec Unit := do
  let b ← popDouble
  let a ← popDouble
  push (.int (Value.compareDouble a b unordered))

end JavaMachine.Exec
