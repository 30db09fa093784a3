import Skirmish.Content.Ron.Basic
import Skirmish.Content.Ron.Number
import Skirmish.Content.Ron.Token

/-!
# Reading RON

A text is any number of options and one value, with blanks, comments and trailing commas wherever
the notation allows them. `Ron.read?` reads it. The limit of nesting is also what the recursion of
the reader runs on, because no value is nested deeper than the limit counts.
-/

namespace Skirmish.Content.Ron

open Reader

/-! ## Values without parts -/

/-- Whether a plain name stands for a value of its own, and so names nothing. -/
def isReserved (n : String) : Bool :=
  n ∈ ["true", "false", "None", "Some"] || isNumber n.toList

/-- A name that may stand before brackets. -/
def openNameReader : Reader String := rawNameReader <|> do
  let n ← plainNameReader
  if isReserved n then failure else return n

/-- What a word alone stands for. -/
def wordReader : Reader Ron := (.name <$> openNameReader) <|> do
  match ← plainNameReader with
  | "true" => return .boolean true
  | "false" => return .boolean false
  | "None" => return .absent
  | "Some" => failure
  | n => return .number n.toList

/-- A number. -/
def numberReader : Reader Ron := do
  let cs ← run1 isRawNameChar
  if isNumber cs then return .number cs else failure

/-- A value without parts. -/
def scalarReader : Reader Ron :=
  (.string <$> stringReader) <|> (.bytes <$> bytesReader) <|> (.byte <$> byteReader) <|>
  (.character <$> characterReader) <|> wordReader <|> numberReader

/-! ## Values with parts -/

/-- The fields of a record, after its opening bracket. -/
def fieldsReader (value : Reader Ron) : Reader (List (String × Ron)) :=
  commaSeparated (do
    let n ← nameReader
    gap; char ':'; gap
    return (n, ← value)) gap ')' true

/-- Items up to a closing character. -/
def itemsReader (value : Reader Ron) (close : Char) : Reader (List Ron) :=
  commaSeparated value gap close true

/-- The fields of a record or the items of a tuple, after the opening bracket. -/
def bodyReader (name : Option String) (value : Reader Ron) : Reader Ron :=
  (.record name <$> fieldsReader value) <|> (.tuple name <$> itemsReader value ')')

/-- What stands in the brackets of `Some`: one value, or the body of a record or tuple if the
options allow it. -/
def contentReader (o : Options) (value : Reader Ron) : Reader Ron := do
  match ← bodyReader none value with
  | .tuple _ [v] => return v
  | body => if o.bareVariants then return body else failure

/-- An optional value that is there. Where options make `Some` needless, its brackets are too. -/
def givenReader (o : Options) (value : Reader Ron) : Reader Ron := do
  if (← plainNameReader) ≠ "Some" then failure
  gap
  if ← present (char '(') then .given <$> contentReader o value
  else if o.implicitSome then .given <$> value
  else failure

/-- A value with parts, which `value` reads. -/
def compoundReader (o : Options) (value : Reader Ron) : Reader Ron :=
  (do char '['; .list <$> itemsReader value ']') <|>
  (do
    char '\x7b'
    let entry : Reader (Ron × Ron) := do
      let k ← value
      gap; char ':'; gap
      return (k, ← value)
    .map <$> commaSeparated entry gap '\x7d' true) <|>
  (do text ['(', ')']; return .unit) <|>
  (do char '('; bodyReader none value) <|>
  givenReader o value <|>
  (do let n ← openNameReader; gap; char '('; bodyReader n value)

/-- A value with at most this many values around one another. -/
def nestedReader (o : Options) : (depth : Nat) → Reader Ron
  | 0 => scalarReader
  | depth + 1 => compoundReader o (nestedReader o depth) <|> scalarReader

/-! ## Texts -/

/-- Names of options, at least one. -/
def optionsReader : Reader (List String) := do
  char '#'; gap; char '!'; gap; char '['; gap
  text "enable".toList
  gap; char '('
  let names ← commaSeparated nameReader gap ')' true
  if names.isEmpty then failure
  gap; char ']'; gap
  return names

/-- A text: options, and one value. -/
def textReader : Reader (Options × Ron) := do
  gap
  match options? (← many optionsReader).flatten with
  | none => failure
  | some o =>
    let v ← nestedReader o depthLimit
    gap
    if v.fits depthLimit then return (o, v) else failure

/-- Reads a text. -/
def read? (s : String) : Option (Options × Ron) := textReader.read? s

end Skirmish.Content.Ron
