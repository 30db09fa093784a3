import Skirmish.Decimal.Shortest

/-!
# Numbers as text

Three ways to write a double: `text`, the shortest digits in positional notation, never with an
exponent; `signedText`, the same with a sign in front of every number; and `tenths`, with exactly
one decimal place, the exact value rounded with ties to the even digit.
-/

namespace Skirmish.Decimal

/-- `n` zeros. -/
def zeros (n : Nat) : List Char := List.replicate n '0'

/-- Digits with the last `places` of them behind the point. -/
def withPoint (digits : List Char) (places : Nat) : List Char :=
  let padded := zeros (places + 1 - digits.length) ++ digits
  if places = 0 then padded
  else padded.take (padded.length - places) ++ '.' :: padded.drop (padded.length - places)

/-- Positional notation: zeros up to the point, or digits behind it. -/
def Scaled.positional (d : Scaled) : List Char :=
  if 0 ≤ d.exponent then Nat.toDigits 10 (d.digits * Nat.pow 10 d.exponent.toNat)
  else withPoint (Nat.toDigits 10 d.digits) d.exponent.natAbs

/-- Quotient rounded to the nearest whole number, ties to the even one. -/
def roundedQuotient (n d : Nat) : Nat :=
  let q := n / d
  let twice := 2 * (n % d)
  if twice < d ∨ (twice = d ∧ q % 2 = 0) then q else q + 1

/-- One decimal place. -/
def Dyadic.tenths (x : Dyadic) : List Char :=
  let n := Dyadic.numerator x.significand x.exponent (-1)
  withPoint (Nat.toDigits 10 (roundedQuotient n (Dyadic.denominator x.exponent (-1)))) 1

/-- Whether the sign bit is set. -/
def signBit (x : Float) : Bool := x.toBits >>> 63 = 1

/-- Writes `NaN`, `inf`, or a finite magnitude, with `plus` or `-` in front except for `NaN`. -/
def signed (plus : String) (finite : Dyadic → List Char) (x : Float) : String :=
  if x.isNaN then "NaN"
  else
    let magnitude := if x.isInf then "inf" else String.ofList (finite (.ofFloat x))
    (if signBit x then "-" else plus) ++ magnitude

/-- Shortest digits that read back to the same double. -/
def text (x : Float) : String := signed "" (·.shortest.positional) x

/-- As `text`, with `+` in front of what is not negative. -/
def signedText (x : Float) : String := signed "+" (·.shortest.positional) x

/-- One decimal place. -/
def tenths (x : Float) : String := signed "" Dyadic.tenths x

end Skirmish.Decimal
