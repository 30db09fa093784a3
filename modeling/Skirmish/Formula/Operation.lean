import Skirmish.Formula.Value

/-!
# Operators at work

`Operator.apply` computes the value of an operator on values. Arithmetic is that of doubles and
never fails: a division by zero is an infinity or not a number. Operands are checked from left to
right.
-/

namespace Skirmish.Formula

/-- Two numbers. -/
def numberPair (a b : Value) : Except EvalError (Float × Float) := do
  return (← a.asNumber, ← b.asNumber)

namespace OperatorRule

/-- The value of a rule on its operands. A rule with the wrong number of them is a fault that
names it `name`. -/
def apply (name : String) : OperatorRule → List Value → Except EvalError Value
  | sum, [a, b] => do let (x, y) ← numberPair a b; return .number (x + y)
  | difference, [a, b] => do let (x, y) ← numberPair a b; return .number (x - y)
  | product, [a, b] => do let (x, y) ← numberPair a b; return .number (x * y)
  | quotient, [a, b] => do let (x, y) ← numberPair a b; return .number (x / y)
  | power, [a, b] => do let (x, y) ← numberPair a b; return .number (x.pow y)
  | greater, [a, b] => do let (x, y) ← numberPair a b; return .boolean (x > y)
  | less, [a, b] => do let (x, y) ← numberPair a b; return .boolean (x < y)
  | equal, [a, b] => do let (x, y) ← numberPair a b; return .boolean (x == y)
  | percentage, [a, b] => do let (x, y) ← numberPair a b; return .number (x * y / 100)
  | orElse, [a, b] => do let (x, y) ← numberPair a b; return .number (if x == 0 then y else x)
  | doubledSum, [a, b] => do let (x, y) ← numberPair a b; return .number (2 * x + y)
  | conjunction, [a, b] => do
    if ← a.asBoolean then return .boolean (← b.asBoolean) else return .boolean false
  | complement, [a] => do return .boolean (!(← a.asBoolean))
  | opposite, [a] => do return .number (-(← a.asNumber))
  | _, operands => .error (.arity name operands.length)

end OperatorRule

/-- Applies an operator to as many operands as it takes. -/
def Operator.apply (op : Operator) (operands : List Value) : Except EvalError Value :=
  if operands.length = op.arity then op.rule.apply op.symbol operands
  else .error (.arity op.symbol operands.length)

/-! ## Extremes

The smaller and the larger of two numbers, where what is not a number gives way to the other, and
of two equal numbers (a zero and a negative zero) the first stays. -/

/-- The larger of two numbers. -/
def larger (x y : Float) : Float := if x.isNaN || y > x then y else x

/-- The smaller of two numbers. -/
def smaller (x y : Float) : Float := if x.isNaN || y < x then y else x

/-- The largest of some numbers, below which there is negative infinity. -/
def largest (xs : List Float) : Float := xs.foldl larger (-1.0 / 0.0)

/-- The smallest of some numbers, above which there is infinity. -/
def smallest (xs : List Float) : Float := xs.foldl smaller (1.0 / 0.0)

end Skirmish.Formula
