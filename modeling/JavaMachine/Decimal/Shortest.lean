/-!
# Shortest decimals

A floating-point number is written with the fewest digits that read back as the same number.  A
finite positive number is `significand * 2 ^ exponent`, and the reals that round to it form an
interval around it whose ends belong to it exactly when the significand is even.  For one digit,
then two, and so on, the two neighbours of the number on the grid with so many digits are tested
against that interval in exact arithmetic.  The first grid with a hit wins, of two hits the nearer
one, and of two equally near the greater.

The digits are then written in positional notation, however large or small the number is: an
integer has no point, and nothing is ever written with an exponent.
-/

namespace JavaMachine.Decimal

/-- The widths of a binary floating-point format. -/
structure Format where
  /-- The number of stored significand bits. -/
  fraction : Nat
  /-- The exponent of the smallest positive number. -/
  lowest : Int
  /-- The number of exponent bits. -/
  width : Nat

/-- The 32-bit format. -/
def single : Format := ⟨23, -149, 8⟩

/-- The 64-bit format. -/
def double : Format := ⟨52, -1074, 11⟩

/-- What a bit pattern stands for. -/
inductive Decoded where
  /-- Not a number. -/
  | nan
  /-- An infinity, negative or not. -/
  | infinite (negative : Bool)
  /-- The number `significand * 2 ^ exponent`, negative or not.  `boundary` holds when the next
  smaller number is only half as far away as the next greater one. -/
  | finite (negative : Bool) (significand : Nat) (exponent : Int) (boundary : Bool)

/-- Reads a bit pattern of a format. -/
def Format.decode (f : Format) (bits : Nat) : Decoded :=
  let fraction := bits % Nat.pow 2 f.fraction
  let exponent := bits / Nat.pow 2 f.fraction % Nat.pow 2 f.width
  let negative := bits / Nat.pow 2 (f.fraction + f.width) % 2 == 1
  if exponent == Nat.pow 2 f.width - 1 then
    if fraction == 0 then .infinite negative else .nan
  else if exponent == 0 then .finite negative fraction f.lowest false
  else
    .finite negative (Nat.pow 2 f.fraction + fraction) (f.lowest + (exponent - 1))
      (fraction == 0 && exponent != 1)

/-- A positive rational number, the quotient of two natural numbers. -/
structure Ratio where
  /-- The numerator. -/
  num : Nat
  /-- The denominator. -/
  den : Nat

namespace Ratio

/-- The number `n * 2 ^ e`. -/
def binary (n : Nat) (e : Int) : Ratio :=
  if e < 0 then ⟨n, Nat.pow 2 e.natAbs⟩ else ⟨n * Nat.pow 2 e.natAbs, 1⟩

/-- The number `n * 10 ^ e`. -/
def decimal (n : Nat) (e : Int) : Ratio :=
  if e < 0 then ⟨n, Nat.pow 10 e.natAbs⟩ else ⟨n * Nat.pow 10 e.natAbs, 1⟩

/-- The order of two quotients, by cross multiplication. -/
def compare (a b : Ratio) : Ordering := Ord.compare (a.num * b.den) (b.num * a.den)

/-- The distance of two quotients. -/
def distance (a b : Ratio) : Ratio :=
  let x := a.num * b.den
  let y := b.num * a.den
  ⟨(x - y) + (y - x), a.den * b.den⟩

/-- The quotient of a number by `10 ^ e`, rounded down. -/
def floorAt (a : Ratio) (e : Int) : Nat :=
  if e < 0 then a.num * Nat.pow 10 e.natAbs / a.den else a.num / (a.den * Nat.pow 10 e.natAbs)

end Ratio

/-- The reals that round to a number. -/
structure Interval where
  /-- The lower end. -/
  low : Ratio
  /-- The upper end. -/
  high : Ratio
  /-- Whether the ends themselves round to the number. -/
  closed : Bool

namespace Interval

/-- The interval of `significand * 2 ^ exponent`. -/
def around (significand : Nat) (exponent : Int) (boundary : Bool) : Interval where
  low := .binary (4 * significand - (if boundary then 1 else 2)) (exponent - 2)
  high := .binary (4 * significand + 2) (exponent - 2)
  closed := significand % 2 == 0

/-- Whether a real rounds to the number. -/
def contains (i : Interval) (a : Ratio) : Bool :=
  match i.low.compare a, a.compare i.high with
  | .lt, .lt => true
  | .eq, .lt | .lt, .eq | .eq, .eq => i.closed
  | _, _ => false

end Interval

/-- The exponent of the leading decimal digit of a positive number: the greatest `e` below the
bound with `10 ^ e` not above the number. -/
def leading (a : Ratio) : Nat → Int → Int
  | 0, e => e
  | fuel + 1, e => if (Ratio.decimal 1 e).compare a == .gt then leading a fuel (e - 1) else e

/-- The neighbour of a number on the grid of `10 ^ e` that rounds to it, the nearer of two and the
greater of two equally near. -/
def onGrid (i : Interval) (a : Ratio) (e : Int) : Option Nat :=
  let down := a.floorAt e
  let up := down + 1
  match i.contains (.decimal down e), i.contains (.decimal up e) with
  | true, false => some down
  | false, true => some up
  | true, true =>
      if (a.distance (.decimal down e)).compare (a.distance (.decimal up e)) == .lt then some down
      else some up
  | false, false => none

/-- The first hit among the grids from `10 ^ e` on downwards, with its exponent. -/
def firstHit (i : Interval) (a : Ratio) : Nat → Int → Nat × Int
  | 0, e => (a.floorAt e, e)
  | fuel + 1, e =>
      match onGrid i a e with
      | some n => (n, e)
      | none => firstHit i a fuel (e - 1)

/-- The shortest decimal `n * 10 ^ e` that reads back as a positive number. -/
def shortest (significand : Nat) (exponent : Int) (boundary : Bool) : Nat × Int :=
  let a := Ratio.binary significand exponent
  firstHit (.around significand exponent boundary) a 20 (leading a 700 310)

/-- The number `n * 10 ^ e` in positional notation, without superfluous zeros. -/
def positional (n : Nat) (e : Int) : String :=
  if e < 0 then
    let places := e.natAbs
    let digits := Nat.toDigits 10 n
    let padded := List.replicate (places + 1 - digits.length) '0' ++ digits
    let fraction := (padded.drop (padded.length - places)).reverse.dropWhile (· == '0')
    let whole := String.ofList (padded.take (padded.length - places))
    if fraction.isEmpty then whole else whole ++ "." ++ String.ofList fraction.reverse
  else toString (n * Nat.pow 10 e.natAbs)

/-- The text of a bit pattern. -/
def Format.text (f : Format) (bits : Nat) : String :=
  match f.decode bits with
  | .nan => "NaN"
  | .infinite negative => if negative then "-inf" else "inf"
  | .finite negative significand exponent boundary =>
      let unsigned :=
        if significand == 0 then "0"
        else
          let (n, e) := shortest significand exponent boundary
          positional n e
      if negative then "-" ++ unsigned else unsigned

end JavaMachine.Decimal
