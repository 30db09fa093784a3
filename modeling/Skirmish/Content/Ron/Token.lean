import Skirmish.Content.Identifier
import Skirmish.Content.Reader

/-!
# Tokens of RON

Blanks and comments, names, and what stands in quotes: strings, characters and bytes.
-/

namespace Skirmish.Content.Ron

open Reader

/-! ## Blanks -/

/-- The blanks between tokens. -/
def isBlank (c : Char) : Bool :=
  c ∈ [' ', '\t', '\n', '\r', '\x0b', '\x0c', '\u0085', '\u200e', '\u200f', '\u2028', '\u2029']

/-- Inside of which comment a text is. -/
inductive Comment
  | none
  | line
  | block (depth : Nat)

/-- The rest of a text after blanks and comments. Block comments nest and must be closed. -/
def skip : Comment → List Char → Option (List Char)
  | .none, [] => some []
  | .none, c :: cs =>
    if isBlank c then skip .none cs
    else match c, cs with
      | '/', '/' :: cs => skip .line cs
      | '/', '*' :: cs => skip (.block 0) cs
      | _, _ => some (c :: cs)
  | .line, [] => some []
  | .line, c :: cs => if c = '\n' then skip .none cs else skip .line cs
  | .block _, [] => none
  | .block n, '/' :: '*' :: cs => skip (.block (n + 1)) cs
  | .block 0, '*' :: '/' :: cs => skip .none cs
  | .block (n + 1), '*' :: '/' :: cs => skip (.block n) cs
  | .block n, _ :: cs => skip (.block n) cs

/-- Blanks and comments. -/
def gap : Reader Unit := fun cs => (skip .none cs).map ((), ·)

/-! ## Names -/

/-- Whether a name may start with a character. -/
def startsName (c : Char) : Bool := c = '_' || Identifier.starts c

/-- Whether a raw name may hold a character. -/
def isRawNameChar (c : Char) : Bool := Identifier.continues c || c = '.' || c = '+' || c = '-'

/-- A name that is an identifier. -/
def plainNameReader : Reader String := do
  let c ← satisfy startsName
  return .ofList (c :: (← run Identifier.continues))

/-- A raw name, after `r#`. -/
def rawNameReader : Reader String := do
  text ['r', '#']
  return .ofList (← run1 isRawNameChar)

/-- A name. -/
def nameReader : Reader String := rawNameReader <|> plainNameReader

/-! ## Escapes -/

/-- What a backslash makes of a single character. -/
def shortEscape? : Char → Option Char
  | '\'' => some '\''
  | '"' => some '"'
  | '\\' => some '\\'
  | 'n' => some '\n'
  | 'r' => some '\r'
  | 't' => some '\t'
  | '0' => some '\x00'
  | _ => none

/-- A character that a backslash and one character stand for. -/
def shortEscape : Reader Char := do
  match shortEscape? (← satisfy fun _ => true) with
  | some c => return c
  | none => failure

/-- The byte of `\xHH`. -/
def hexByte : Reader Nat := do
  char 'x'
  return ofDigits 16 (← exactly 2 isHex)

/-- The character with a code point. -/
def charWithPoint (n : Nat) : Reader Char :=
  match charOfNat? n with
  | some c => return c
  | none => failure

/-- Up to `n` more hexadecimal digits. -/
def hexDigitsUpTo : Nat → Reader (List Char)
  | 0 => return []
  | n + 1 => (do
    let c ← satisfy isHex
    return c :: (← hexDigitsUpTo n)) <|> return []

/-- The character whose code point stands in braces after `u`. -/
def pointEscape : Reader Char := do
  text ['u', '\x7b']
  let digits ← hexDigitsUpTo 6
  if digits.isEmpty then failure
  char '\x7d'
  charWithPoint (ofDigits 16 digits)

/-- A continuation byte of an encoded character, written `\xHH`. -/
def continuationByte : Reader Nat := do
  char '\\'
  let b ← hexByte
  if 0x80 ≤ b ∧ b < 0xC0 then return b % 64 else failure

/-- The code point whose encoding starts with the byte `first`, the other bytes written `\xHH`. -/
def encodedPoint (first : Nat) : Reader Nat := do
  if first < 0x80 then return first
  else if 0xC2 ≤ first ∧ first < 0xE0 then
    let a ← continuationByte
    return first % 32 * 64 + a
  else if 0xE0 ≤ first ∧ first < 0xF0 then
    let a ← continuationByte
    let b ← continuationByte
    let n := first % 16 * 4096 + a * 64 + b
    if n < 0x800 then failure else return n
  else if 0xF0 ≤ first ∧ first < 0xF5 then
    let a ← continuationByte
    let b ← continuationByte
    let c ← continuationByte
    let n := first % 8 * 262144 + a * 4096 + b * 64 + c
    if n < 0x10000 then failure else return n
  else failure

/-! ## Strings -/

/-- A character of a string. -/
def stringPart : Reader Char :=
  (do
    char '\\'
    shortEscape <|> pointEscape <|> do charWithPoint (← encodedPoint (← hexByte))) <|>
  satisfy (fun c => c ≠ '"' && c ≠ '\\')

/-- The characters before a quote that is followed by `marks`. -/
def rawEnd (marks : List Char) : List Char → Option (List Char × List Char)
  | [] => none
  | c :: cs =>
    if c = '"' && marks.isPrefixOf cs then some ([], cs.drop marks.length)
    else (rawEnd marks cs).map fun (body, rest) => (c :: body, rest)

/-- The characters of a string without escapes, after `r` and any number of number signs. -/
def rawCharacters : Reader (List Char) := do
  char 'r'
  let marks ← run (· = '#')
  char '"'
  rawEnd marks

/-- Parts between quotes. -/
def quoted {α : Type} (part : Reader α) : Reader (List α) := do
  char '"'
  let parts ← many part
  char '"'
  return parts

/-- A string. -/
def stringReader : Reader String := String.ofList <$> (quoted stringPart <|> rawCharacters)

/-- A character in single quotes. Bytes beyond ASCII do not make up a character here. -/
def characterReader : Reader Char := do
  char '\''
  let c ← (do
    char '\\'
    shortEscape <|> pointEscape <|> do
      let b ← hexByte
      if b < 0x80 then charWithPoint b else failure) <|> satisfy (· ≠ '\\')
  char '\''
  return c

/-! ## Bytes -/

/-- The bytes of a character. -/
def encode (c : Char) : List UInt8 := (String.singleton c).toUTF8.toList

/-- A byte after a backslash. -/
def byteEscape : Reader UInt8 :=
  (do return .ofNat (← shortEscape).toNat) <|> (do return .ofNat (← hexByte))

/-- A byte in single quotes, after `b`. -/
def byteReader : Reader UInt8 := do
  text ['b', '\'']
  let b ← (do char '\\'; byteEscape) <|>
    (do return .ofNat (← satisfy fun c => c ≠ '\\' && c.toNat < 0x80).toNat)
  char '\''
  return b

/-- Some bytes of a string of bytes. -/
def bytesPart : Reader (List UInt8) :=
  (do char '\\'; (do return [← byteEscape]) <|> encode <$> pointEscape) <|>
  encode <$> satisfy (fun c => c ≠ '"' && c ≠ '\\')

/-- A string of bytes, after `b`. -/
def bytesReader : Reader (List UInt8) := do
  char 'b'
  (do return (← quoted bytesPart).flatten) <|> (do return (← rawCharacters).flatMap encode)

end Skirmish.Content.Ron
