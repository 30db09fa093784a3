import Skirmish.Content.Toml.Basic
import Skirmish.Content.Toml.Moment
import Skirmish.Content.Toml.Number
import Skirmish.Content.Toml.Token

/-!
# Reading TOML

A text is first read into statements (`Toml.Statement`), and these then build one table of values
(`Toml.build?`). Values may be nested 80 deep, which is also what the recursion of the reader runs
on.
-/

namespace Skirmish.Content.Toml

open Reader

/-! ## Values -/

/-- A truth value, a number or a time. -/
def plainReader : Reader Toml :=
  (do
    let cs ← written momentReader
    match ← peek? with
    | some c => if c.isAlphanum || c ∈ ['_', '+', '-', '.', ':'] then failure else pure ()
    | none => pure ()
    return moment cs) <|>
  (do
    let cs ← run1 fun c => c.isAlphanum || c ∈ ['_', '+', '-', '.']
    if cs = "true".toList then return boolean true
    else if cs = "false".toList then return boolean false
    else
      match special? cs, integer? cs, fraction? cs with
      | some x, _, _ => return float x
      | none, some n, _ => if fitsWord 128 n then return integer n else failure
      | none, none, some x => return float x
      | none, none, none => failure)

/-- An assignment, of which `value` reads the right side; `space` may stand around the sign. -/
def assignmentReader (space : Reader Unit) (value : Reader Toml) :
    Reader (List String × Toml) := do
  let path ← keyReader
  space; char '='; space
  return (path, ← value)

/-- A table in braces. -/
def inlineReader (value : Reader Toml) : Reader Toml := do
  char '\x7b'
  let assignments ← commaSeparated (assignmentReader gap value) gap '\x7d' true
  match assignments.foldlM (fun es (path, v) => assign? v true path es) [] with
  | some es => return table .inline es
  | none => failure

/-- A value without parts. -/
def scalarReader : Reader Toml := (string <$> stringReader) <|> plainReader

/-- A value nested at most this deep. -/
def nestedReader : (depth : Nat) → Reader Toml
  | 0 => scalarReader
  | depth + 1 =>
    (do char '['; return array (← commaSeparated (nestedReader depth) gap ']' true)) <|>
    inlineReader (nestedReader depth) <|> scalarReader

/-- How deep values may be nested. -/
def depthLimit : Nat := 80

/-! ## Texts -/

/-- A line of a text. -/
inductive Statement
  | assignment (path : List String) (v : Toml)
  | header (path : List String)
  | arrayHeader (path : List String)

/-- A header between brackets. -/
def headerPath : Reader (List String) := do
  blanks
  let path ← keyReader
  blanks
  return path

/-- A statement. -/
def statementReader : Reader Statement :=
  (do text ['[', '[']; let path ← headerPath; text [']', ']']; return .arrayHeader path) <|>
  (do char '['; let path ← headerPath; char ']'; return .header path) <|>
  (do
    let (path, v) ← assignmentReader blanks (nestedReader depthLimit)
    return .assignment path v)

/-- A text: statements, each on a line of its own. -/
def textReader : Reader (List Statement) := do
  discard (present (char '\ufeff'))
  gap
  let statements ← many do
    let s ← statementReader
    blanks
    discard (present comment)
    newline
    gap
    return s
  let last ← Reader.optional do
    let s ← statementReader
    blanks
    discard (present comment)
    return s
  return statements ++ last.toList

/-- One statement after another: the path of the table that is open, and all entries. -/
def execute? : List String × Entries → Statement → Option (List String × Entries)
  | (path, es), .assignment key v => do return (path, ← within? (assign? v true key) path es)
  | (_, es), .header path => do
    return (path, ← within? (open? (← path.getLast?)) path.dropLast es)
  | (_, es), .arrayHeader path => do
    return (path, ← within? (append? (← path.getLast?)) path.dropLast es)

/-- The table that statements build. -/
def build? (statements : List Statement) : Option Entries :=
  (statements.foldlM execute? ([], [])).map (·.2)

/-- Reads a text. -/
def read? (s : String) : Option Entries := do build? (← textReader.read? s)

end Skirmish.Content.Toml
