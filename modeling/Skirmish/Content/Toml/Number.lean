import Skirmish.Content.Reader
import Skirmish.Decimal.Numeral

/-!
# Numbers in TOML

Whole numbers in base two, eight, ten or sixteen, and decimal numbers with a fraction or an
exponent. Single underscores may stand between digits.
-/

namespace Skirmish.Content.Toml

/-- Digits of a base, with single underscores between them. -/
def digits? (isDigit : Char → Bool) (cs : List Char) : Option (List Char) :=
  let groups := cs.splitOn '_'
  if groups.all (fun g => !g.isEmpty && g.all isDigit) then some groups.flatten else none

/-- The digits of a whole number, which start with a zero only if that is all. -/
def wholeDigits? (cs : List Char) : Option (List Char) := do
  let ds ← digits? Char.isDigit cs
  if 1 < ds.length ∧ ds.head? = some '0' then none else return ds

/-- Digits in another base, after their mark. -/
def based? (base : Nat) (isDigit : Char → Bool) (cs : List Char) : Option Int := do
  return (ofDigits base (← digits? isDigit cs) : Int)

/-- A whole number. -/
def integer? (cs : List Char) : Option Int :=
  match cs with
  | '0' :: 'x' :: cs => based? 16 isHex cs
  | '0' :: 'o' :: cs => based? 8 (fun c => '0' ≤ c && c ≤ '7') cs
  | '0' :: 'b' :: cs => based? 2 (fun c => c = '0' || c = '1') cs
  | cs => do
    let (negative, cs) := Decimal.takeSign cs
    let n : Int := ofDigits 10 (← wholeDigits? cs)
    return if negative then -n else n

/-- A number with a fraction, an exponent or both. What is too large for a double is none. -/
def fraction? (cs : List Char) : Option Float := do
  let (negative, cs) := Decimal.takeSign cs
  let (mantissa, exponent) := cs.span fun c => c ≠ 'e' && c ≠ 'E'
  let (whole, fraction) := mantissa.span (· ≠ '.')
  let whole ← wholeDigits? whole
  let fraction ← match fraction with
    | [] => some []
    | _ :: ds => (digits? Char.isDigit ds).map ('.' :: ·)
  let exponent ← match exponent with
    | [] => some []
    | _ :: '+' :: ds => (digits? Char.isDigit ds).map ('e' :: '+' :: ·)
    | _ :: '-' :: ds => (digits? Char.isDigit ds).map ('e' :: '-' :: ·)
    | _ :: ds => (digits? Char.isDigit ds).map ('e' :: ·)
  let x ← Decimal.float? (whole ++ fraction ++ exponent)
  if x.isInf then none else return if negative then -x else x

/-- An infinity or NaN. -/
def special? (cs : List Char) : Option Float :=
  let (negative, word) := Decimal.takeSign cs
  if word = "inf".toList then some (if negative then -1.0 / 0.0 else 1.0 / 0.0)
  else if word = "nan".toList then some (0.0 / 0.0)
  else none

/-- Whether a number fits a word of that many bits, with a sign or without. -/
def fitsWord (bits : Nat) (n : Int) : Bool :=
  -Int.ofNat (Nat.pow 2 (bits - 1)) ≤ n && n < Int.ofNat (Nat.pow 2 bits)

end Skirmish.Content.Toml
