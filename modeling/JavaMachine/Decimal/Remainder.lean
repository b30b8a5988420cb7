import JavaMachine.Decimal.Shortest

/-!
# Floating-point remainder

The remainder of a division that truncates its quotient is always a number of the format, so it
is computed exactly on the significands: both numbers are brought to the smaller of their
exponents, the remainder of the integers is taken, and the result carries the sign of the
dividend.  A remainder by zero, of an infinity, or with a NaN is not a number, and a remainder by
an infinity is the dividend itself.
-/

namespace JavaMachine.Decimal

namespace Format

/-- The bit pattern of not-a-number. -/
def nanBits (f : Format) : Nat :=
  (Nat.pow 2 f.width - 1) * Nat.pow 2 f.fraction + Nat.pow 2 (f.fraction - 1)

/-- Writes `significand * 2 ^ exponent`, a number of the format, as a bit pattern: the significand
is moved to its stored width by a shift in either direction, no further than the lowest exponent
allows. -/
def encode (f : Format) (negative : Bool) (significand : Nat) (exponent : Int) : Nat :=
  let sign := if negative then Nat.pow 2 (f.fraction + f.width) else 0
  if significand == 0 then sign
  else
    let excess : Int := (Nat.log2 significand : Int) - f.fraction
    let target : Int := max f.lowest (exponent + excess)
    let shift := target - exponent
    let aligned :=
      if shift < 0 then significand * Nat.pow 2 shift.natAbs
      else significand / Nat.pow 2 shift.natAbs
    let step := (target - f.lowest).toNat
    sign + step * Nat.pow 2 f.fraction + aligned

/-- The remainder of two bit patterns, with the sign of the dividend. -/
def remainder (f : Format) (a b : Nat) : Nat :=
  match f.decode a, f.decode b with
  | .nan, _ | _, .nan | .infinite _, _ => f.nanBits
  | .finite .., .infinite _ => a
  | .finite negative m e _, .finite _ n d _ =>
      if n == 0 then f.nanBits
      else
        let least := min e d
        let x := m * Nat.pow 2 (e - least).toNat
        let y := n * Nat.pow 2 (d - least).toNat
        f.encode negative (x % y) least

end Format

end JavaMachine.Decimal
