import JavaMachine.Fault

/-!
# Descriptors

A descriptor is the written form of a type: one letter for a primitive type, `L` and a class name
up to a semicolon for a class, `[` and a descriptor for an array.  A method descriptor puts the
argument descriptors in parentheses and the return descriptor behind them.  `JType.encode` writes
a type, `JType.read` reads one from the front of a text and keeps the rest, and `MethodType.parse`
reads a whole method descriptor.
-/

namespace JavaMachine

/-- The type of a field, an argument or a result. -/
inductive JType where
  | int
  | long
  | float
  | double
  | void
  | byte
  | char
  | short
  | boolean
  /-- An object of the named class. -/
  | reference (className : String)
  /-- An array with elements of a type. -/
  | array (element : JType)
  deriving Repr, DecidableEq

namespace JType

/-- The number of words that a value of the type takes. -/
def size : JType → Nat
  | long | double => 2
  | void => 0
  | _ => 1

/-- A class or array type. -/
def isReference : JType → Bool
  | reference _ | array _ => true
  | _ => false

/-- The characters of a type's descriptor. -/
def encode : JType → List Char
  | int => ['I']
  | long => ['J']
  | float => ['F']
  | double => ['D']
  | void => ['V']
  | byte => ['B']
  | char => ['C']
  | short => ['S']
  | boolean => ['Z']
  | reference className => 'L' :: className.toList ++ [';']
  | array element => '[' :: element.encode

/-- The descriptor of a type. -/
def descriptor (t : JType) : String := String.ofList t.encode

/-- Reads one type from the front of a text and gives the rest.  A text that does not start with a
descriptor is refused with the part at which reading failed: behind the brackets of an array that
is the element's part. -/
def read : List Char → Except (List Char) (JType × List Char)
  | 'I' :: rest => .ok (int, rest)
  | 'J' :: rest => .ok (long, rest)
  | 'F' :: rest => .ok (float, rest)
  | 'D' :: rest => .ok (double, rest)
  | 'V' :: rest => .ok (void, rest)
  | 'B' :: rest => .ok (byte, rest)
  | 'C' :: rest => .ok (char, rest)
  | 'S' :: rest => .ok (short, rest)
  | 'Z' :: rest => .ok (boolean, rest)
  | 'L' :: rest =>
      match rest.dropWhile (· != ';') with
      | _ :: behind => .ok (reference (String.ofList (rest.takeWhile (· != ';'))), behind)
      | [] => .error ('L' :: rest)
  | '[' :: rest =>
      match read rest with
      | .ok (element, behind) => .ok (array element, behind)
      | .error part => .error part
  | text => .error text

/-- The fault for a text at which reading failed. -/
def invalid (text : List Char) : Fault := .invalidDescriptor (String.ofList text)

/-- Reads one type from the front of a text, with the number of bytes that it spans. -/
def decode (text : String) : Except Fault (JType × Nat) :=
  match read text.toList with
  | .ok (t, rest) => .ok (t, text.utf8ByteSize - (String.ofList rest).utf8ByteSize)
  | .error part => .error (invalid part)

/-- Reads a text that is one field type: nothing may follow it, and a field is never void. -/
def ofField (text : String) : Except Fault JType :=
  match read text.toList with
  | .ok (t, rest) =>
      if rest.isEmpty && t ≠ void then .ok t else .error (.invalidDescriptor text)
  | .error part => .error (invalid part)

end JType

/-- The types of a method: its arguments in order, and its result. -/
structure MethodType where
  /-- The argument types, the receiver not included. -/
  args : List JType
  /-- The type of the result. -/
  result : JType
  deriving Repr, DecidableEq

namespace MethodType

/-- Reads argument types until the text ends.  `fuel` bounds the number of arguments, and the
length of the text is always enough because every type takes a character. -/
def readArgs (whole : Fault) : Nat → List Char → Except Fault (List JType)
  | _, [] => .ok []
  | 0, text => .error (JType.invalid text)
  | fuel + 1, text =>
      match JType.read text with
      | .error part => .error (JType.invalid part)
      | .ok (.void, _) => .error whole
      | .ok (t, rest) => (readArgs whole fuel rest).map (t :: ·)

/-- Splits a method descriptor into the text between its parentheses and the text behind them.
The part behind them is on one line and not empty. -/
def split : List Char → Option (List Char × List Char)
  | '(' :: rest =>
      match rest.dropWhile (· != ')') with
      | _ :: result =>
          if result.isEmpty || result.contains '\n' then none
          else some (rest.takeWhile (· != ')'), result)
      | [] => none
  | _ => none

/-- Reads a whole method descriptor, its result before its arguments.  A void argument and text
behind the result make the whole descriptor invalid, a part that cannot be read is reported by
itself. -/
def parse (text : String) : Except Fault MethodType :=
  match split text.toList with
  | none => .error (.invalidDescriptor text)
  | some (args, result) =>
      match JType.read result with
      | .error part => .error (JType.invalid part)
      | .ok (t, rest) =>
          if rest.isEmpty then
            (readArgs (.invalidDescriptor text) args.length args).map (⟨·, t⟩)
          else .error (.invalidDescriptor text)

end MethodType

end JavaMachine
