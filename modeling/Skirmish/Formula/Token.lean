import Skirmish.Formula.Error
import Skirmish.Formula.Vocabulary

/-!
# Tokens

A formula is a flat sequence of tokens: brackets, commas, symbols, and words. `tokenize` splits a
text into them. Blanks are dropped first, so they also join what they separate. A character that
is special to the vocabulary is a token of its own; every other run of characters is one token.

A minus is a subtraction after a word or a closing bracket, and elsewhere the sign of what
follows. Before anything but a number that sign becomes a factor: `-STR` is read as `-1*STR`.
-/

namespace Skirmish.Formula

/-- A token. Symbols carry the operator or function that the vocabulary gives them. -/
inductive Token
  /-- a number, a name or a placeholder -/
  | word (text : String)
  | operator (op : Operator)
  | function (f : Function)
  | leftParen
  | rightParen
  | separator
  deriving Repr, DecidableEq

namespace Token

/-- The token that a text stands for: a function of that name, an operator of that symbol, a
bracket or comma, or else a word. -/
def classify (v : Vocabulary) (text : String) : Token :=
  match v.function? text with
  | some f => function f
  | none =>
    match v.operator? text with
    | some op => operator op
    | none =>
      if text = "(" then leftParen
      else if text = ")" then rightParen
      else if text = "," then separator
      else word text

/-- The text of a token. -/
def text : Token → String
  | word text => text
  | operator op => op.symbol
  | function f => f.name
  | leftParen => "("
  | rightParen => ")"
  | separator => ","

/-- The class of a token, in words. -/
def className : Token → String
  | word _ => "variable"
  | operator _ => "operator"
  | function _ => "function"
  | leftParen => "left_paren"
  | rightParen => "right_paren"
  | separator => "separator"

/-- A token keeps its text. -/
theorem text_classify (v : Vocabulary) (t : String) : (classify v t).text = t := by
  unfold classify
  split
  · next f h => simpa [text, Vocabulary.function?] using List.find?_some h
  · split
    · next op h => simpa [text, Vocabulary.operator?] using List.find?_some h
    · split
      · next h => exact h.symm
      · split
        · next h => exact h.symm
        · split
          · next h => exact h.symm
          · rfl

/-! ## Splitting a text -/

/-- The blanks that a formula may be laid out with. -/
def isBlank (c : Char) : Bool := c = ' ' || c = '\t' || c = '\n' || c = '\r'

/-- Whether a number may start with this character, after its sign. -/
def startsNumber (c : Char) : Bool := c.isDigit || c = '.'

/-- The tokens of a run of ordinary characters: none for an empty run, one token otherwise, except
that a minus before anything but a number becomes the factor `-1 *`. -/
def ofRun (v : Vocabulary) : List Char → List Token
  | [] => []
  | '-' :: rest =>
    if rest.head?.any startsNumber then [classify v (String.ofList ('-' :: rest))]
    else
      let factor := [classify v "-1", classify v "*"]
      if rest.isEmpty then factor else factor ++ [classify v (String.ofList rest)]
  | run => [classify v (String.ofList run)]

/-- Splits the rest of a text. `run` is the run of ordinary characters that ends here, `last?`
the token before it. -/
def scan (v : Vocabulary) (last? : Option Token) (run : List Char) :
    List Char → Except ParseError (List Token)
  | [] => .ok (ofRun v run)
  | c :: rest =>
    if !v.isSpecial c then scan v last? (run ++ [c]) rest
    else
      let finished := ofRun v run
      let last? := finished.getLast?.or last?
      if c = '-' then
        if (v.function? (String.ofList run)).isSome then
          .error (.minusAfterFunction (String.ofList run))
        else
          match last? with
          | some (function f) => .error (.minusAfterFunction f.name)
          | some (word _) | some rightParen =>
            let minus := classify v "-"
            (finished ++ minus :: ·) <$> scan v (some minus) [] rest
          | _ => (finished ++ ·) <$> scan v last? ['-'] rest
      else
        let token := classify v (String.singleton c)
        (finished ++ token :: ·) <$> scan v (some token) [] rest

end Token

/-- Splits a text into tokens. Nothing but blanks is a fault. -/
def tokenize (v : Vocabulary) (text : String) : Except ParseError (List Token) :=
  let cleaned := text.toList.filter (!Token.isBlank ·)
  if cleaned.isEmpty then .error .empty else Token.scan v none [] cleaned

end Skirmish.Formula
