import Skirmish.Content.Reader
import Skirmish.Decimal.Numeral

/-!
# Numbers in RON

How numbers are written. A whole number has digits in base two, eight, ten or sixteen; in base two
or ten it may end with the mark of a word, such as `i8`, and must then fit that word. A number with
a fraction or an exponent is decimal, and like an infinity or NaN it may end with the mark `f32` or
`f64`. A whole decimal number beyond 64 bits counts as one with a fraction. Underscores may stand
between digits.
-/

namespace Skirmish.Content.Ron

/-! ## Whole numbers -/

/-- The marks of words, each with the least and the greatest number of the word. -/
def words : List (String × Int × Int) :=
  [("i8", -0x80, 0x7F), ("i16", -0x8000, 0x7FFF), ("i32", -0x80000000, 0x7FFFFFFF),
   ("i64", -0x8000000000000000, 0x7FFFFFFFFFFFFFFF),
   ("u8", 0, 0xFF), ("u16", 0, 0xFFFF), ("u32", 0, 0xFFFFFFFF), ("u64", 0, 0xFFFFFFFFFFFFFFFF)]

/-- The least and the greatest number that may stand without a mark. -/
def unmarkedRange : Int × Int := (-0x8000000000000000, 0xFFFFFFFFFFFFFFFF)

/-- Takes the mark of a word off a number, and gives the range of that word. -/
def splitWord (cs : List Char) : List Char × Int × Int :=
  match words.find? fun w => w.1.toList.isSuffixOf cs with
  | some (mark, range) => (cs.take (cs.length - mark.length), range)
  | none => (cs, unmarkedRange)

/-- Whether digits of a base, of which the first is not an underscore, denote a number in a range,
with the sign taken off before. -/
def denotes (negative : Bool) (base : Nat) (range : Int × Int) (cs : List Char) : Bool :=
  let digits := cs.filter (· ≠ '_')
  let n : Int := ofDigits base digits
  let n := if negative then -n else n
  cs.head?.any (· ≠ '_') && digits.all (fun c => (hexValue? c).any (· < base)) &&
    range.1 ≤ n && n ≤ range.2

/-- Whether a whole number is written so. -/
def isWhole (cs : List Char) : Bool :=
  let (negative, cs) := Decimal.takeSign cs
  match cs with
  | '0' :: 'x' :: cs => denotes negative 16 unmarkedRange cs
  | '0' :: 'o' :: cs => denotes negative 8 unmarkedRange cs
  | '0' :: 'b' :: cs => let (digits, range) := splitWord cs; denotes negative 2 range digits
  | cs => let (digits, range) := splitWord cs; denotes negative 10 range digits

/-! ## Numbers with a fraction -/

/-- Drops underscores, each of which must follow a digit or an exponent mark of its part. -/
def dropUnderscores : (allowed : Bool) → List Char → Option (List Char)
  | _, [] => some []
  | allowed, c :: cs =>
    if c = '_' then (if allowed then dropUnderscores allowed cs else none)
    else
      let allowed := if c = '.' then false else allowed || c.isDigit || c = 'e' || c = 'E'
      (dropUnderscores allowed cs).map (c :: ·)

/-- The marks of a number with a fraction. -/
inductive FractionMark
  | single
  | double
  deriving Repr, DecidableEq

/-- Takes the mark off a number. -/
def splitFraction (cs : List Char) : List Char × Option FractionMark :=
  if "f32".toList.isSuffixOf cs then (cs.take (cs.length - 3), some .single)
  else if "f64".toList.isSuffixOf cs then (cs.take (cs.length - 3), some .double)
  else (cs, none)

/-- A number with a fraction, an infinity or NaN, without a mark. -/
def fraction? (cs : List Char) : Option Float :=
  let (negative, word) := Decimal.takeSign cs
  if word = "inf".toList then some (if negative then -1.0 / 0.0 else 1.0 / 0.0)
  else if word = "NaN".toList then some (0.0 / 0.0)
  else do Decimal.float? (← dropUnderscores false cs)

/-- A number as a double; the mark of another size rules that out. -/
def double? (cs : List Char) : Option Float :=
  match splitFraction cs with
  | (_, some .single) => none
  | (cs, _) => fraction? cs

/-- Whether a number is written so. -/
def isNumber (cs : List Char) : Bool :=
  isWhole cs || (fraction? (splitFraction cs).1).isSome

end Skirmish.Content.Ron
