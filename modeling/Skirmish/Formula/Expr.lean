import Skirmish.Decimal.Numeral
import Skirmish.Formula.Value

/-!
# Expressions

An expression is a value, an operator applied to operands, or a function called with arguments.
-/

namespace Skirmish.Formula

/-- An expression. -/
inductive Expr
  | leaf (v : Value)
  | apply (op : Operator) (operands : List Expr)
  | call (f : Function) (arguments : List Expr)
  deriving Inhabited

namespace Expr

/-- The value at the root: an operator or a function for an inner node. -/
def head : Expr → Value
  | leaf v => v
  | apply op _ => .operator op
  | call f _ => .function f

/-- Whether nothing is below the root, and the root is no function. -/
def isLeaf : Expr → Bool
  | leaf (.function _) => false
  | leaf _ => true
  | apply _ operands => operands.isEmpty
  | call _ _ => false

/-- The name of the function that is called at the root. -/
def functionName? (e : Expr) : Option String :=
  match e.head with
  | .function f => some f.name
  | _ => none

/-- Whether the root is a call of the function called `name`. -/
def isCallTo (e : Expr) (name : String) : Bool := e.functionName? = some name

/-- A value as an expression. An operator or function alone is one applied to nothing. -/
def ofValue : Value → Expr
  | .operator op => apply op []
  | .function f => call f []
  | v => leaf v

/-- What a word stands for: a number if it is written as one, with a digit or the point first,
and otherwise a key. -/
def literal (text : String) : Value :=
  let unsigned := match text.toList with
    | '-' :: cs => cs
    | cs => cs
  if unsigned.head?.any fun c => c.isDigit || c = '.' then
    match Decimal.float? text.toList with
    | some x => .number x
    | none => .key text
  else .key text

end Expr

end Skirmish.Formula
