/-!
# Sixteen-bit units

A string object keeps its text as sixteen-bit units: a character of the basic plane is one unit, a
character outside it a pair of surrogates.  `ofUnits` reads units back, and puts the replacement
character where a surrogate stands without its partner.
-/

namespace JavaMachine.Text

/-- The units of a character. -/
def unitsOfChar (c : Char) : List UInt16 :=
  let n := c.toNat
  if n < 0x10000 then [n.toUInt16]
  else [(0xD800 + (n - 0x10000) / 0x400).toUInt16, (0xDC00 + (n - 0x10000) % 0x400).toUInt16]

/-- The units of a text. -/
def units (s : String) : List UInt16 := s.toList.flatMap unitsOfChar

/-- The character that stands for a surrogate without its partner. -/
def replacement : Char := Char.ofNat 0xFFFD

/-- A unit that opens a pair. -/
def isHigh (u : UInt16) : Bool := 0xD800 ≤ u && u ≤ 0xDBFF

/-- A unit that closes a pair. -/
def isLow (u : UInt16) : Bool := 0xDC00 ≤ u && u ≤ 0xDFFF

/-- The character of a pair. -/
def pair (high low : UInt16) : Char :=
  Char.ofNat (0x10000 + (high.toNat - 0xD800) * 0x400 + (low.toNat - 0xDC00))

/-- The characters of units. -/
def charsOfUnits : List UInt16 → List Char
  | [] => []
  | [u] => [if isHigh u || isLow u then replacement else Char.ofNat u.toNat]
  | u :: v :: rest =>
      if isHigh u && isLow v then pair u v :: charsOfUnits rest
      else
        (if isHigh u || isLow u then replacement else Char.ofNat u.toNat) ::
          charsOfUnits (v :: rest)

/-- The text of units. -/
def ofUnits (us : List UInt16) : String := String.ofList (charsOfUnits us)

end JavaMachine.Text
