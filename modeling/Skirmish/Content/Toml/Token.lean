import Skirmish.Content.Reader

/-!
# Tokens of TOML

Blanks and comments, strings on one line or several, and keys.
-/

namespace Skirmish.Content.Toml

open Reader

/-! ## Blanks -/

/-- Whether a character may stand in a comment or a string. -/
def isPlain (c : Char) : Bool := c = '\t' || (0x20 ≤ c.toNat && c.toNat ≠ 0x7F)

/-- Whether a character is a blank within a line. -/
def isBlank (c : Char) : Bool := c = ' ' || c = '\t'

/-- Blanks within a line. -/
def blanks : Reader Unit := discard (run isBlank)

/-- The end of a line. -/
def newline : Reader Unit := char '\n' <|> text ['\r', '\n']

/-- A comment, up to the end of its line. -/
def comment : Reader Unit := do
  char '#'
  discard (run isPlain)

/-- Blanks, comments and ends of lines. -/
def gap : Reader Unit := do
  blanks
  discard <| many do (comment <|> newline); blanks

/-! ## Strings -/

/-- What follows a backslash. -/
def escape : Reader Char := do
  match ← satisfy fun _ => true with
  | 'b' => return '\x08'
  | 't' => return '\t'
  | 'n' => return '\n'
  | 'f' => return '\x0c'
  | 'r' => return '\r'
  | 'e' => return '\x1b'
  | '"' => return '"'
  | '\\' => return '\\'
  | 'x' => point (← exactly 2 isHex)
  | 'u' => point (← exactly 4 isHex)
  | 'U' => point (← exactly 8 isHex)
  | _ => failure
where
  /-- The character whose code point is written so. -/
  point (digits : List Char) : Reader Char :=
    match charOfNat? (ofDigits 16 digits) with
    | some c => return c
    | none => failure

/-- A string on one line, with escapes. -/
def quotedReader : Reader String := do
  char '"'
  let cs ← many <|
    (do char '\\'; escape) <|> satisfy (fun c => isPlain c && c ≠ '"' && c ≠ '\\')
  char '"'
  return .ofList cs

/-- A string on one line, without escapes. -/
def literalReader : Reader String := do
  char '\''
  let cs ← run fun c => isPlain c && c ≠ '\''
  char '\''
  return .ofList cs

/-- The end of a string over several lines: three quotes, and up to two more that belong to it. -/
def longEnd (quote : Char) : Reader (List Char) := do
  text [quote, quote, quote]
  let one ← present (char quote)
  let two ← if one then present (char quote) else pure false
  return List.replicate (one.toNat + two.toNat) quote

/-- Some characters of a string over several lines, before its end. -/
def longPart (quote : Char) (part : Reader (List Char)) : Reader (List Char) := do
  if ← ahead [quote, quote, quote] then failure
  written newline <|> part

/-- A string over several lines, made of parts. A line that ends right after the opening quotes
does not count. -/
def longReader (quote : Char) (part : Reader (List Char)) : Reader String := do
  text [quote, quote, quote]
  discard (present newline)
  let parts ← many (longPart quote part)
  return .ofList (parts.flatten ++ (← longEnd quote))

/-- A backslash at the end of a line, which swallows all blanks and ends of lines after it. -/
def continuation : Reader (List Char) := do
  char '\\'
  blanks
  newline
  discard (many (newline <|> discard (satisfy isBlank)))
  return []

/-- A string over several lines, with escapes. -/
def longQuotedReader : Reader String :=
  longReader '"' <| continuation <|> (do char '\\'; return [← escape]) <|>
    (return [← satisfy fun c => isPlain c && c ≠ '\\'])

/-- A string over several lines, without escapes. -/
def longLiteralReader : Reader String :=
  longReader '\'' (return [← satisfy isPlain])

/-- A string. -/
def stringReader : Reader String :=
  longQuotedReader <|> longLiteralReader <|> quotedReader <|> literalReader

/-! ## Keys -/

/-- A part of a key. -/
def keyPart : Reader String :=
  (return .ofList (← run1 fun c => c.isAlphanum || c = '_' || c = '-')) <|>
  quotedReader <|> literalReader

/-- How many parts a key may have. -/
def keyLimit : Nat := 80

/-- A key, with its parts between dots. -/
def keyReader : Reader (List String) := do
  let first ← keyPart
  let rest ← many do blanks; char '.'; blanks; keyPart
  if keyLimit ≤ rest.length then failure
  return first :: rest

end Skirmish.Content.Toml
