/-!
# Decimal numerals

A numeral is a sign, a whole number of digits and a power of ten; `Numeral.ofChars?` reads the
written form and `Numeral.toFloat` takes the nearest double, ties to the even one. An exponent
far outside the range of doubles is settled by its size alone, so that no numeral, however it is
written, asks for a power of ten of that size.
-/

namespace Skirmish.Decimal

/-- Value of an ASCII digit. -/
def digitValue (c : Char) : Nat := c.toNat - '0'.toNat

/-- The number that a list of ASCII digits denotes, after the digits read so far. -/
def digitsValue (acc : Nat) : List Char → Nat
  | [] => acc
  | c :: cs => digitsValue (10 * acc + digitValue c) cs

/-- The longest run of ASCII digits at the start, and the rest. -/
def takeDigits (cs : List Char) : List Char × List Char := cs.span Char.isDigit

/-- A written number: `digits * 10 ^ exponent`, negated if `negative`. -/
structure Numeral where
  negative : Bool
  digits : Nat
  exponent : Int
  deriving Repr, DecidableEq

/-- An optional sign, and whether it is a minus. -/
def takeSign : List Char → Bool × List Char
  | '-' :: cs => (true, cs)
  | '+' :: cs => (false, cs)
  | cs => (false, cs)

/-- The exponent part: nothing, or `e` or `E` with a signed whole number that ends the text. -/
def exponentOfChars? : List Char → Option Int
  | [] => some 0
  | c :: cs =>
    if c = 'e' ∨ c = 'E' then
      let (negative, cs) := takeSign cs
      let (digits, rest) := takeDigits cs
      if digits.isEmpty ∨ !rest.isEmpty then none
      else
        let n : Int := digitsValue 0 digits
        some (if negative then -n else n)
    else none

namespace Numeral

/-- Reads `[sign] digits [. digits] [exponent]`. Digits may be missing on one side of the point,
not on both, and nothing may follow. -/
def ofChars? (cs : List Char) : Option Numeral :=
  let (negative, cs) := takeSign cs
  let (whole, cs) := takeDigits cs
  let (fraction, cs) := match cs with
    | '.' :: cs => takeDigits cs
    | cs => ([], cs)
  if whole.isEmpty ∧ fraction.isEmpty then none
  else (exponentOfChars? cs).map fun e =>
    ⟨negative, digitsValue 0 (whole ++ fraction), e - fraction.length⟩

/-- Number of decimal digits; zero has none. -/
def digitCount (n : Nat) : Nat := if n = 0 then 0 else (Nat.toDigits 10 n).length

/-- The nearest double without regard to the sign. Beyond `10 ^ 310` every double is infinite,
below `10 ^ (-330)` it is zero. -/
def magnitude (x : Numeral) : Float :=
  let lead := (digitCount x.digits : Int) + x.exponent
  if x.digits = 0 ∨ lead < -330 then 0.0
  else if 310 < lead then 1.0 / 0.0
  else Float.ofScientific x.digits (x.exponent < 0) x.exponent.natAbs

/-- The nearest double. A negative zero stays negative. -/
def toFloat (x : Numeral) : Float :=
  if x.negative then -x.magnitude else x.magnitude

end Numeral

/-- Reads a numeral as a double. -/
def float? (cs : List Char) : Option Float := (Numeral.ofChars? cs).map Numeral.toFloat

/-- Reads a whole number written with ASCII digits only, at least one. -/
def nat? (cs : List Char) : Option Nat :=
  if cs.isEmpty ∨ !cs.all Char.isDigit then none else some (digitsValue 0 cs)

end Skirmish.Decimal
