import JavaMachine.Descriptor
import JavaMachine.Decimal.Shortest

/-!
# Values

Every slot of an operand stack, of the local variables, of an object and of an array holds one
`Value`.  Objects and arrays are handles into the heap, a class is named by its identity.  The
module holds the readings of a value (`asInt`, `asLong`, …), its conversion to a declared type
(`coerceTo`), the two equalities, the three narrowings of an int, the three-way comparison of
floating-point numbers and the text of a value.
-/

namespace JavaMachine

/-- A handle of a heap entry. -/
structure Handle where
  /-- The slot of the heap that the handle names. -/
  index : Nat
  deriving Repr, DecidableEq

/-- A class as values refer to it.  Two classes of one name, registered one after the other, are
different classes. -/
structure ClassRef where
  /-- The place of the class in the order of registration. -/
  id : Nat
  /-- The name of the class. -/
  name : String
  deriving Repr, DecidableEq

/-- A value of the machine. -/
inductive Value where
  | int (v : Int32)
  | long (v : Int64)
  | float (v : Float32)
  | double (v : Float)
  | byte (v : Int8)
  | short (v : Int16)
  | char (v : UInt16)
  | bool (v : Bool)
  /-- An object of the heap. -/
  | object (h : Handle)
  /-- An array of the heap. -/
  | array (h : Handle)
  /-- A class. -/
  | classRef (c : ClassRef)
  /-- An address in the code of the frame that holds the value. -/
  | returnAddress (pc : Nat)
  | null
  deriving Inhabited

namespace Value

/-- The kind of a value, without its payload. -/
inductive Kind where
  | int
  | long
  | float
  | double
  | byte
  | short
  | char
  | bool
  | object
  | array
  | classRef
  | returnAddress
  | null
  deriving Repr, DecidableEq

/-- The word that messages use for a kind. -/
def Kind.name : Kind → String
  | int => "int"
  | long => "long"
  | float => "float"
  | double => "double"
  | byte => "byte"
  | short => "short"
  | char => "char"
  | bool => "boolean"
  | object => "object"
  | array => "array"
  | classRef => "class"
  | returnAddress => "returnAddress"
  | null => "null"

/-- The kind of a value. -/
def kind : Value → Kind
  | int _ => .int
  | long _ => .long
  | float _ => .float
  | double _ => .double
  | byte _ => .byte
  | short _ => .short
  | char _ => .char
  | bool _ => .bool
  | object _ => .object
  | array _ => .array
  | classRef _ => .classRef
  | returnAddress _ => .returnAddress
  | null => .null

/-- A long or a double, which takes two words. -/
def isWide : Value → Bool
  | long _ | double _ => true
  | _ => false

/-- The number of words of a value. -/
def words (v : Value) : Nat := if v.isWide then 2 else 1

/-- An object, an array, a class or null. -/
def isReference : Value → Bool
  | object _ | array _ | classRef _ | null => true
  | _ => false

/-- The null reference. -/
def isNull : Value → Bool
  | null => true
  | _ => false

/-- A return address. -/
def isReturnAddress : Value → Bool
  | returnAddress _ => true
  | _ => false

/-- The fault of a value that stands where another kind is needed. -/
def mismatch (v : Value) (expected : String) : Fault := .typeMismatch expected v.kind.name

/-! ## Readings -/

/-- The int behind an int or any smaller integer kind. -/
def asInt : Value → Except Fault Int32
  | int v => .ok v
  | byte v => .ok v.toInt32
  | short v => .ok v.toInt32
  | char v => .ok v.toUInt32.toInt32
  | bool v => .ok (if v then 1 else 0)
  | v => .error (v.mismatch "int")

/-- The long behind a long. -/
def asLong : Value → Except Fault Int64
  | long v => .ok v
  | v => .error (v.mismatch "long")

/-- The float behind a float. -/
def asFloat : Value → Except Fault Float32
  | float v => .ok v
  | v => .error (v.mismatch "float")

/-- The double behind a double. -/
def asDouble : Value → Except Fault Float
  | double v => .ok v
  | v => .error (v.mismatch "double")

/-- The address behind a return address. -/
def asReturnAddress : Value → Except Fault Nat
  | returnAddress pc => .ok pc
  | v => .error (v.mismatch "returnAddress")

/-- The handle behind an object or an array, none behind null. -/
def asHandle : Value → Except Fault (Option Handle)
  | object h | array h => .ok (some h)
  | null => .ok none
  | v => .error (v.mismatch "reference")

/-- A reference or a return address, unchanged. -/
def asReference (v : Value) : Except Fault Value :=
  match v with
  | returnAddress _ => .ok v
  | _ => if v.isReference then .ok v else .error (v.mismatch "reference")

/-! ## Narrowing and comparison -/

/-- The low eight bits of an int, sign-extended. -/
def narrowByte (v : Int32) : Int32 := v.toInt8.toInt32

/-- The low sixteen bits of an int, zero-extended. -/
def narrowChar (v : Int32) : Int32 := v &&& 0xffff

/-- The low sixteen bits of an int, sign-extended. -/
def narrowShort (v : Int32) : Int32 := v.toInt16.toInt32

/-- The low bit of an int. -/
def narrowBoolean (v : Int32) : Int32 := v &&& 1

/-- The sign of a comparison of two doubles, and `unordered` when one is not a number. -/
def compareDouble (a b : Float) (unordered : Int32) : Int32 :=
  if a > b then 1 else if a == b then 0 else if a < b then -1 else unordered

/-- The sign of a comparison of two floats, and `unordered` when one is not a number. -/
def compareFloat (a b : Float32) (unordered : Int32) : Int32 :=
  if a > b then 1 else if a == b then 0 else if a < b then -1 else unordered

/-! ## Conversion to a declared type -/

/-- What a field of a type holds before anything is stored. -/
def defaultOf : JType → Value
  | .long => long 0
  | .float => float 0.0
  | .double => double 0.0
  | .reference _ | .array _ | .void => null
  | _ => int 0

/-- The value that a field, an argument or a result of a type holds when an operand is given to
it.  The small integer types keep their low bits as an int. -/
def coerceTo (v : Value) : JType → Except Fault Value
  | .int => v.asInt.map int
  | .byte => v.asInt.map (int ∘ narrowByte)
  | .char => v.asInt.map (int ∘ narrowChar)
  | .short => v.asInt.map (int ∘ narrowShort)
  | .boolean => v.asInt.map (int ∘ narrowBoolean)
  | .long => v.asLong.map long
  | .float => v.asFloat.map float
  | .double => v.asDouble.map double
  | .reference _ | .array _ => v.asReference
  | .void => .error (v.mismatch "void")

/-! ## Equality -/

/-- Two references to the same thing.  An object and an array are never the same, whatever their
handles. -/
def sameReference : Value → Value → Bool
  | null, null => true
  | object a, object b | array a, array b => a == b
  | classRef a, classRef b => a.id == b.id
  | _, _ => false

/-- Two values of one kind with the same payload.  Floating-point numbers are compared by their
bits. -/
def same : Value → Value → Bool
  | int a, int b => a == b
  | long a, long b => a == b
  | float a, float b => a.toBits == b.toBits
  | double a, double b => a.toBits == b.toBits
  | byte a, byte b => a == b
  | short a, short b => a == b
  | char a, char b => a == b
  | bool a, bool b => a == b
  | returnAddress a, returnAddress b => a == b
  | a, b => a.sameReference b

/-! ## Text -/

/-- The text of a value: its kind and, in parentheses, its payload. -/
def text : Value → String
  | int v => s!"int({v})"
  | long v => s!"long({v})"
  | float v => "float(" ++ Decimal.single.text v.toBits.toNat ++ ")"
  | double v => "double(" ++ Decimal.double.text v.toBits.toNat ++ ")"
  | byte v => s!"byte({v})"
  | short v => s!"short({v})"
  | char v => s!"char({v})"
  | bool v => s!"boolean({v})"
  | object h => s!"object(#{h.index})"
  | array h => s!"array(#{h.index})"
  | classRef c => s!"class({c.name})"
  | returnAddress pc => s!"returnAddress({pc})"
  | null => "null"

end Value

end JavaMachine
