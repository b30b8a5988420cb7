import JavaMachine.Fault

/-!
# Engine configuration

A configuration is written as one JSON value: an object whose keys name settings, or an array that
gives the settings in their order.  A setting that is not mentioned keeps its default.  Keys that
name no setting are ignored with whatever follows them, a setting that is given twice is refused,
and so is anything before or behind the value other than blanks.

The reader works on the characters of the text.  `skipValue` passes over a value of any form, and
`readNat`, `readOption` and `readBool` read the forms that settings take.  A setting's number is
written with decimal digits only and has at most 64 bits.
-/

namespace JavaMachine

/-- The settings of the engine. -/
structure Config where
  /-- The number of instructions between two periodic collections, none for zero. -/
  collectInterval : Nat := 0
  /-- The number of frames of a thread at which calls overflow. -/
  maxFrames : Nat := 2048
  /-- The number of live heap entries at which allocations fail, without bound when absent. -/
  heapCapacity : Option Nat := none
  /-- The length above which arrays are refused, without bound when absent. -/
  maxArrayLength : Option Nat := some 16777216
  /-- Whether every instruction is reported. -/
  traceOpcodes : Bool := false
  deriving Repr, DecidableEq

namespace Config

/-! ## Passing over text -/

/-- The characters between the tokens of a configuration. -/
def isBlank (c : Char) : Bool := c == ' ' || c == '\n' || c == '\t' || c == '\r'

/-- The text behind leading blanks. -/
def skipBlanks (text : List Char) : List Char := text.dropWhile isBlank

/-- The text behind leading blanks and an expected character. -/
def expect (c : Char) (text : List Char) : Option (List Char) :=
  match skipBlanks text with
  | d :: rest => if c == d then some rest else none
  | [] => none

/-- The value of a hexadecimal digit. -/
def hexDigit? (c : Char) : Option Nat :=
  if '0' ≤ c ∧ c ≤ '9' then some (c.toNat - '0'.toNat)
  else if 'a' ≤ c ∧ c ≤ 'f' then some (c.toNat - 'a'.toNat + 10)
  else if 'A' ≤ c ∧ c ≤ 'F' then some (c.toNat - 'A'.toNat + 10)
  else none

/-- Reads four hexadecimal digits. -/
def readUnit : List Char → Option (Nat × List Char)
  | a :: b :: c :: d :: rest => do
      let unit := (((← hexDigit? a) * 16 + (← hexDigit? b)) * 16 + (← hexDigit? c)) * 16
      return (unit + (← hexDigit? d), rest)
  | _ => none

/-- What a one-letter escape stands for. -/
def escape? : Char → Option Char
  | '"' => some '"'
  | '\\' => some '\\'
  | '/' => some '/'
  | 'b' => some '\x08'
  | 'f' => some '\x0c'
  | 'n' => some '\n'
  | 'r' => some '\r'
  | 't' => some '\t'
  | _ => none

/-- The text behind the rest of a string, the opening quote being read.  Control characters and
escapes that do not exist are refused. -/
def skipString : Nat → List Char → Option (List Char)
  | _, [] | 0, _ => none
  | _ + 1, '"' :: rest => some rest
  | fuel + 1, '\\' :: 'u' :: rest => do
      let (_, behind) ← readUnit rest
      skipString fuel behind
  | fuel + 1, '\\' :: c :: rest => do
      let _ ← escape? c
      skipString fuel rest
  | fuel + 1, c :: rest => if c.toNat < 0x20 then none else skipString fuel rest

/-- The text behind one or more digits. -/
def skipDigits (text : List Char) : Option (List Char) :=
  match text with
  | c :: rest => if c.isDigit then some (rest.dropWhile Char.isDigit) else none
  | [] => none

/-- The text behind the integer part of a number, which has no superfluous zero in front. -/
def skipInteger : List Char → Option (List Char)
  | '0' :: c :: rest => if c.isDigit then none else some (c :: rest)
  | text => skipDigits text

/-- The text behind the fraction of a number, if it has one. -/
def skipFraction : List Char → Option (List Char)
  | '.' :: rest => skipDigits rest
  | text => some text

/-- The text behind the exponent of a number, if it has one. -/
def skipExponent : List Char → Option (List Char)
  | c :: d :: rest =>
      if c == 'e' || c == 'E' then
        if d == '+' || d == '-' then skipDigits rest else skipDigits (d :: rest)
      else some (c :: d :: rest)
  | [c] => if c == 'e' || c == 'E' then none else some [c]
  | [] => some []

/-- The text behind a number. -/
def skipNumber : List Char → Option (List Char)
  | '-' :: text => do skipExponent (← skipFraction (← skipInteger text))
  | text => do skipExponent (← skipFraction (← skipInteger text))

/-- The text behind a word. -/
def skipWord : List Char → List Char → Option (List Char)
  | [], text => some text
  | c :: word, d :: text => if c == d then skipWord word text else none
  | _ :: _, [] => none

/-- What has been opened around a place in a value. -/
inductive Enclosing where
  | array
  | object

/-- The text behind the values that are open.  `key` asks for a member's key first, `value` for a
value, and `behind` for what may follow one.  The length of the text is enough fuel because every
turn takes a character. -/
inductive Wanted where
  | key
  | value
  | behind

/-- Passes over a value of any form.  The list holds what is open around the place, innermost
first. -/
def skipOpen : Nat → Wanted → List Enclosing → List Char → Option (List Char)
  | _, .behind, [], text => some text
  | 0, _, _, _ => none
  | fuel + 1, .behind, enclosing :: outer, text =>
      match enclosing, skipBlanks text with
      | .array, ',' :: rest => skipOpen fuel .value (enclosing :: outer) rest
      | .object, ',' :: rest => skipOpen fuel .key (enclosing :: outer) rest
      | .array, ']' :: rest => skipOpen fuel .behind outer rest
      | .object, '}' :: rest => skipOpen fuel .behind outer rest
      | _, _ => none
  | fuel + 1, .key, opened, text => do
      let rest ← expect '"' text
      let rest ← skipString rest.length rest
      skipOpen fuel .value opened (← expect ':' rest)
  | fuel + 1, .value, opened, text =>
      match skipBlanks text with
      | '"' :: rest => do skipOpen fuel .behind opened (← skipString rest.length rest)
      | 'n' :: rest => do skipOpen fuel .behind opened (← skipWord ['u', 'l', 'l'] rest)
      | 't' :: rest => do skipOpen fuel .behind opened (← skipWord ['r', 'u', 'e'] rest)
      | 'f' :: rest => do skipOpen fuel .behind opened (← skipWord ['a', 'l', 's', 'e'] rest)
      | '[' :: rest =>
          match skipBlanks rest with
          | ']' :: behind => skipOpen fuel .behind opened behind
          | _ => skipOpen fuel .value (.array :: opened) rest
      | '{' :: rest =>
          match skipBlanks rest with
          | '}' :: behind => skipOpen fuel .behind opened behind
          | _ => skipOpen fuel .key (.object :: opened) rest
      | rest => do skipOpen fuel .behind opened (← skipNumber rest)

/-- The text behind a value of any form. -/
def skipValue (text : List Char) : Option (List Char) := skipOpen (text.length + 1) .value [] text

/-! ## Keys and settings -/

/-- Reads the rest of a key, the opening quote being read.  A surrogate stands only in a pair. -/
def readKey : Nat → List Char → Option (List Char × List Char)
  | _, [] | 0, _ => none
  | _ + 1, '"' :: rest => some ([], rest)
  | fuel + 1, '\\' :: 'u' :: rest => do
      let (unit, behind) ← readUnit rest
      if 0xDC00 ≤ unit ∧ unit ≤ 0xDFFF then none
      else if 0xD800 ≤ unit ∧ unit ≤ 0xDBFF then
        let second ← skipWord ['\\', 'u'] behind
        let (low, last) ← readUnit second
        if 0xDC00 ≤ low ∧ low ≤ 0xDFFF then
          let (key, final) ← readKey fuel last
          return (Char.ofNat (0x10000 + (unit - 0xD800) * 0x400 + (low - 0xDC00)) :: key, final)
        else none
      else
        let (key, final) ← readKey fuel behind
        return (Char.ofNat unit :: key, final)
  | fuel + 1, '\\' :: c :: rest => do
      let d ← escape? c
      let (key, final) ← readKey fuel rest
      return (d :: key, final)
  | fuel + 1, c :: rest =>
      if c.toNat < 0x20 then none
      else do
        let (key, final) ← readKey fuel rest
        return (c :: key, final)

/-- Reads a natural number of at most 64 bits, written with digits only. -/
def readNat (text : List Char) : Option (Nat × List Char) := do
  let text := skipBlanks text
  let rest ← skipInteger text
  match rest with
  | '.' :: _ | 'e' :: _ | 'E' :: _ => none
  | _ =>
      let digits := text.take (text.length - rest.length)
      let n := digits.foldl (fun n c => n * 10 + (c.toNat - '0'.toNat)) 0
      if n < 0x10000000000000000 then some (n, rest) else none

/-- Reads a natural number or null. -/
def readOption (text : List Char) : Option (Option Nat × List Char) :=
  match skipBlanks text with
  | 'n' :: rest => (skipWord ['u', 'l', 'l'] rest).map (none, ·)
  | text => (readNat text).map fun (n, rest) => (some n, rest)

/-- Reads a truth value. -/
def readBool (text : List Char) : Option (Bool × List Char) :=
  match skipBlanks text with
  | 't' :: rest => (skipWord ['r', 'u', 'e'] rest).map (true, ·)
  | 'f' :: rest => (skipWord ['a', 'l', 's', 'e'] rest).map (false, ·)
  | _ => none

/-- The settings, in their order. -/
inductive Setting where
  | collectInterval
  | maxFrames
  | heapCapacity
  | maxArrayLength
  | traceOpcodes
  deriving Repr, DecidableEq

/-- Every setting, in order. -/
def Setting.all : List Setting :=
  [.collectInterval, .maxFrames, .heapCapacity, .maxArrayLength, .traceOpcodes]

/-- The key of a setting. -/
def Setting.key : Setting → String
  | .collectInterval => "gc_check_interval"
  | .maxFrames => "max_frames"
  | .heapCapacity => "heap_capacity"
  | .maxArrayLength => "max_array_length"
  | .traceOpcodes => "trace_opcodes"

/-- Reads the value of a setting into a configuration. -/
def Setting.read (s : Setting) (c : Config) (text : List Char) : Option (Config × List Char) :=
  match s with
  | .collectInterval => (readNat text).map fun (n, rest) => ({ c with collectInterval := n }, rest)
  | .maxFrames => (readNat text).map fun (n, rest) => ({ c with maxFrames := n }, rest)
  | .heapCapacity => (readOption text).map fun (n, rest) => ({ c with heapCapacity := n }, rest)
  | .maxArrayLength =>
      (readOption text).map fun (n, rest) => ({ c with maxArrayLength := n }, rest)
  | .traceOpcodes => (readBool text).map fun (b, rest) => ({ c with traceOpcodes := b }, rest)

/-! ## Whole configurations -/

/-- Reads the members of an object from a key on.  `seen` holds the settings given so far. -/
def readMembers : Nat → Config → List Setting → List Char → Option (Config × List Char)
  | 0, _, _, _ => none
  | fuel + 1, c, seen, text => do
      let rest ← expect '"' text
      let (key, rest) ← readKey rest.length rest
      let rest ← expect ':' rest
      let (c, seen, rest) ←
        match Setting.all.find? (·.key == String.ofList key) with
        | none => (skipValue rest).map (c, seen, ·)
        | some s =>
            if seen.contains s then none
            else (s.read c rest).map fun (c, rest) => (c, s :: seen, rest)
      match skipBlanks rest with
      | ',' :: rest => readMembers fuel c seen rest
      | '}' :: rest => some (c, rest)
      | _ => none

/-- Reads the elements of an array from an element on.  The settings are the ones not given
yet. -/
def readElements : List Setting → Config → List Char → Option (Config × List Char)
  | [], _, _ => none
  | s :: settings, c, text => do
      let (c, rest) ← s.read c text
      match skipBlanks rest with
      | ',' :: rest => readElements settings c rest
      | ']' :: rest => some (c, rest)
      | _ => none

/-- Reads a configuration and keeps the rest of the text. -/
def read (text : List Char) : Option (Config × List Char) :=
  match skipBlanks text with
  | '{' :: rest =>
      match skipBlanks rest with
      | '}' :: behind => some ({}, behind)
      | _ => readMembers rest.length {} [] rest
  | '[' :: rest =>
      match skipBlanks rest with
      | ']' :: behind => some ({}, behind)
      | _ => readElements Setting.all {} rest
  | _ => none

/-- Reads a text that is one configuration. -/
def parse (text : String) : Except Fault Config :=
  match read text.toList with
  | some (c, rest) => if (skipBlanks rest).isEmpty then .ok c else .error .invalidConfig
  | none => .error .invalidConfig

end Config

end JavaMachine
