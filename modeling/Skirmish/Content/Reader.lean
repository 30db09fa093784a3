/-!
# Readers

A reader takes what it understands from the front of a text and leaves the rest, or fails. Choice
tries its alternatives on the same text, and repetition (`Reader.many`) ends because it finds at
most one thing for each character of the text.
-/

namespace Skirmish.Content

/-- A reader of `α`. -/
abbrev Reader (α : Type) := StateT (List Char) Option α

namespace Reader

variable {α β : Type}

/-- One character that satisfies `p`. -/
def satisfy (p : Char → Bool) : Reader Char := fun
  | c :: cs => if p c then some (c, cs) else none
  | [] => none

/-- One given character. -/
def char (c : Char) : Reader Unit := discard (satisfy (· = c))

/-- Given characters in a row. -/
def text : List Char → Reader Unit
  | [] => pure ()
  | c :: cs => do char c; text cs

/-- The longest run of characters that satisfy `p`. -/
def run (p : Char → Bool) : Reader (List Char) := fun cs => some (cs.span p)

/-- The longest run of characters that satisfy `p`, which must not be empty. -/
def run1 (p : Char → Bool) : Reader (List Char) := do
  let cs ← run p
  if cs.isEmpty then failure else return cs

/-- Exactly `n` characters that satisfy `p`. -/
def exactly (n : Nat) (p : Char → Bool) : Reader (List Char) :=
  match n with
  | 0 => return []
  | n + 1 => do
    let c ← satisfy p
    return c :: (← exactly n p)

/-- Nothing is left. -/
def done : Reader Unit := fun
  | [] => some ((), [])
  | _ :: _ => none

/-- The next character, which stays. -/
def peek? : Reader (Option Char) := fun cs => some (cs.head?, cs)

/-- Whether the rest starts with these characters, which stay. -/
def ahead (word : List Char) : Reader Bool := fun cs => some (word.isPrefixOf cs, cs)

/-- The characters that a reader takes. -/
def written (r : Reader Unit) : Reader (List Char) := fun cs =>
  (r cs).map fun (_, rest) => (cs.take (cs.length - rest.length), rest)

/-- What the reader finds, if anything. -/
def optional (r : Reader α) : Reader (Option α) := (some <$> r) <|> pure none

/-- Whether the reader finds something. -/
def present (r : Reader α) : Reader Bool := (do discard r; return true) <|> pure false

/-- What the reader finds in a row, at most once for each character of `bound`, and the rest. -/
def manyFrom (r : Reader α) : (bound : List Char) → List Char → List α × List Char
  | [], cs => ([], cs)
  | _ :: bound, cs =>
    match r cs with
    | none => ([], cs)
    | some (a, rest) =>
      let (as, rest) := manyFrom r bound rest
      (a :: as, rest)

/-- As often as the reader finds something. Nothing is missed if it takes a character every time. -/
def many (r : Reader α) : Reader (List α) := fun cs => some (manyFrom r cs cs)

/-- Items with commas between them, up to a closing character. `gap` stands wherever there may be
blanks. If `loose`, a comma may follow the last item. -/
def commaSeparated (item : Reader α) (gap : Reader Unit) (close : Char) (loose : Bool) :
    Reader (List α) := do
  gap
  if ← present (char close) then return []
  let first ← item
  let rest ← many do gap; char ','; gap; item
  gap
  if loose then
    discard (present (char ','))
    gap
  char close
  return first :: rest

/-- What the reader makes of a whole text. -/
def read? (r : Reader α) (s : String) : Option α :=
  let whole : Reader α := do
    let a ← r
    done
    return a
  (whole s.toList).map (·.1)

end Reader

/-! ## Digits -/

/-- Value of a hexadecimal digit. -/
def hexValue? (c : Char) : Option Nat :=
  if c.isDigit then some (c.toNat - '0'.toNat)
  else if 'a' ≤ c ∧ c ≤ 'f' then some (c.toNat - 'a'.toNat + 10)
  else if 'A' ≤ c ∧ c ≤ 'F' then some (c.toNat - 'A'.toNat + 10)
  else none

/-- Whether a character is a hexadecimal digit. -/
def isHex (c : Char) : Bool := (hexValue? c).isSome

/-- The number that digits denote in a base up to sixteen. -/
def ofDigits (base : Nat) (cs : List Char) : Nat :=
  cs.foldl (fun n c => n * base + (hexValue? c).getD 0) 0

/-- The character with a code point, unless there is none. -/
def charOfNat? (n : Nat) : Option Char :=
  if h : n.isValidChar then some (Char.ofNatAux n h) else none

end Skirmish.Content
