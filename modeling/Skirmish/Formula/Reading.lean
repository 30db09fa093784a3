import Skirmish.Formula.Expr
import Skirmish.Formula.Token

/-!
# Reading expressions

`Expr.ofTokens` reads tokens from left to right, by precedence. What has been read so far is kept
as a stack of open brackets; inside each of them some operators wait for their last operand
(`Level`). A complete operand goes to the waiting operators that bind tighter than the operator
that follows it, and then becomes the left operand of that one. A closing bracket, a comma or the
end of the tokens completes all the operators that wait.
-/

namespace Skirmish.Formula

/-- An operator that waits for its last operand. -/
inductive Waiting
  /-- `left op _` -/
  | binary (left : Expr) (op : Operator)
  /-- `op _` -/
  | unary (op : Operator)

namespace Waiting

/-- Gives the operator its last operand. -/
def fill : Waiting → Expr → Expr
  | binary left op, e => .apply op [left, e]
  | unary op, e => .apply op [e]

end Waiting

/-- What is pending between two brackets: the operators that wait for an operand, the innermost
first, and the least precedence of an operator that may continue the operand being read. Each
waiting operator comes with the least precedence that holds again once it is complete. -/
structure Level where
  floor : Nat
  waiting : List (Waiting × Nat)

namespace Level

/-- Nothing pending. -/
def start : Level := ⟨0, []⟩

/-- Completes every waiting operator. -/
def finish (l : Level) (e : Expr) : Expr := l.waiting.foldl (fun e w => w.1.fill e) e

/-- Completes waiting operators until one of precedence `p` may follow. -/
def settle (p : Nat) (e : Expr) (floor : Nat) : List (Waiting × Nat) → Expr × Level
  | [] => (e, ⟨floor, []⟩)
  | (w, outer) :: rest =>
    if floor ≤ p then (e, ⟨floor, (w, outer) :: rest⟩) else settle p (w.fill e) outer rest

/-- Lets a unary operator wait for its operand, which takes everything that binds at least as
tightly. -/
def pushUnary (l : Level) (op : Operator) : Level :=
  ⟨op.precedence, (.unary op, l.floor) :: l.waiting⟩

/-- Lets a binary operator wait for its right operand, after it took its left one. -/
def pushBinary (l : Level) (e : Expr) (op : Operator) : Level :=
  let (left, l) := settle op.precedence e l.floor l.waiting
  ⟨op.rightFloor, (.binary left op, l.floor) :: l.waiting⟩

end Level

/-- An open bracket, with the position of the bracket. -/
inductive Bracket
  /-- a group -/
  | group (opening : Nat)
  /-- the arguments of a call, some of them read -/
  | arguments (f : Function) (opening : Nat) (read : List Expr)

/-- Position of the bracket. -/
def Bracket.opening : Bracket → Nat
  | group i => i
  | arguments _ i _ => i

namespace Expr

/-- A call, if the function takes that many arguments. -/
def ofCall (f : Function) (arguments : List Expr) : Except ParseError Expr :=
  if f.arity.accepts arguments.length then .ok (.call f arguments)
  else .error (.arity f.name f.arity.text arguments.length)

mutual

/-- Reads an operand and what follows it. Tokens come with their positions. -/
def readOperand (level : Level) (opened : List (Bracket × Level)) :
    List (Token × Nat) → Except ParseError Expr
  | [] => .error .unexpectedEnd
  | (.word name, _) :: rest =>
    match rest with
    | (.leftParen, _) :: _ => .error (.unknownFunction name)
    | _ => readRest (.leaf (literal name)) level opened rest
  | (.leftParen, i) :: rest => readOperand .start ((.group i, level) :: opened) rest
  | (.function f, _) :: (.leftParen, _) :: (.rightParen, _) :: rest => do
    readRest (← ofCall f []) level opened rest
  | (.function f, _) :: (.leftParen, i) :: rest =>
    readOperand .start ((.arguments f i [], level) :: opened) rest
  | (.function _, _) :: (t, i) :: _ => .error (.unexpectedToken t.text i)
  | [(.function _, _)] => .error .unexpectedEnd
  | (.operator op, i) :: rest =>
    if op.isUnary then readOperand (level.pushUnary op) opened rest
    else .error (.unexpectedToken op.symbol i)
  | (t, i) :: _ => .error (.unexpectedToken t.text i)

/-- Reads what follows the complete operand `e`. -/
def readRest (e : Expr) (level : Level) (opened : List (Bracket × Level)) :
    List (Token × Nat) → Except ParseError Expr
  | [] =>
    match opened with
    | [] => .ok (level.finish e)
    | (bracket, _) :: _ => .error (.unmatchedParen bracket.opening)
  | (t, i) :: rest =>
    match t, opened with
    | .operator op, _ =>
      if op.isUnary then
        .error (if opened.isEmpty then .trailingInput i else .unexpectedToken op.symbol i)
      else readOperand (level.pushBinary e op) opened rest
    | .rightParen, [] => .error (.unmatchedParen i)
    | .rightParen, (.group _, outer) :: opened => readRest (level.finish e) outer opened rest
    | .rightParen, (.arguments f _ read, outer) :: opened => do
      readRest (← ofCall f (read ++ [level.finish e])) outer opened rest
    | .separator, (.arguments f opening read, outer) :: opened =>
      readOperand .start ((.arguments f opening (read ++ [level.finish e]), outer) :: opened) rest
    | _, [] => .error (.trailingInput i)
    | _, _ :: _ => .error (.unexpectedToken t.text i)

end

/-- Reads tokens as one expression. -/
def ofTokens (tokens : List Token) : Except ParseError Expr :=
  if tokens.isEmpty then .error .empty else readOperand .start [] tokens.zipIdx

/-- Reads a text as one expression. -/
def parse (v : Vocabulary) (text : String) : Except ParseError Expr := do
  ofTokens (← tokenize v text)

end Expr

end Skirmish.Formula
