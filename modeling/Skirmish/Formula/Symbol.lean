/-!
# Operators and functions

The symbols of the formula language. A symbol carries what the reader of formulas has to know of
it (precedence, associativity, number of arguments) and names the rule by which it is evaluated;
the rules themselves are in `Formula.Operation` and `Formula.Eval`.
-/

namespace Skirmish.Formula

/-- How an operator computes its value. -/
inductive OperatorRule
  /-- `a + b` -/
  | sum
  /-- `a - b` -/
  | difference
  /-- `a * b` -/
  | product
  /-- `a / b` -/
  | quotient
  /-- `a` to the power `b` -/
  | power
  /-- the other truth value -/
  | complement
  /-- whether `a > b` -/
  | greater
  /-- whether `a < b` -/
  | less
  /-- whether `a = b` -/
  | equal
  /-- `a * b / 100` -/
  | percentage
  /-- `a`, or `b` when `a` is zero -/
  | orElse
  /-- `2 * a + b` -/
  | doubledSum
  /-- whether both hold; the second operand counts only when the first holds -/
  | conjunction
  /-- `-a` -/
  | opposite
  deriving Repr, DecidableEq

/-- An operator: unary ones are written before their operand, binary ones between theirs. -/
structure Operator where
  symbol : String
  /-- Operators of higher precedence bind tighter. -/
  precedence : Nat
  leftAssociative : Bool
  arity : Nat
  rule : OperatorRule
  deriving Repr, DecidableEq

namespace Operator

/-- Unary operators are written before their operand. -/
def isUnary (op : Operator) : Bool := op.arity = 1

/-- The least precedence of an operator that may continue the right operand of `op`. -/
def rightFloor (op : Operator) : Nat :=
  if op.leftAssociative then op.precedence + 1 else op.precedence

end Operator

/-- Numbers of arguments that a function takes. -/
inductive Arity
  | exactly (n : Nat)
  | atLeast (n : Nat)
  deriving Repr, DecidableEq

namespace Arity

/-- Whether a call may have `count` arguments. -/
def accepts : Arity → Nat → Bool
  | exactly n, count => count = n
  | atLeast n, count => n ≤ count

/-- The arity in words. -/
def text : Arity → String
  | exactly n => s!"{n}"
  | atLeast n => s!"at least {n}"

end Arity

/-- What a call does. -/
inductive FunctionRule
  /-- the largest number -/
  | largest
  /-- the smallest number -/
  | smallest
  /-- the magnitude of a number -/
  | magnitude
  /-- the number, or zero when it is not positive -/
  | nonNegative
  /-- a random whole number between two numbers, the upper one excluded -/
  | random
  /-- damage dealt to a target -/
  | harm
  /-- a target healed -/
  | heal
  /-- the array of the arguments -/
  | array
  /-- the array of the players -/
  | players
  /-- the array of the players able to act -/
  | activePlayers
  /-- the current stat of an entity -/
  | stat
  /-- the second argument when the first holds, else the third -/
  | choose
  /-- a random element of an array -/
  | pick
  /-- whether a roll against a percentage succeeds -/
  | chance
  /-- a skill cast -/
  | cast
  /-- a change to a stat -/
  | modifier
  /-- a status applied to a target -/
  | inflict
  /-- the sum of numbers -/
  | total
  /-- the larger of two numbers -/
  | larger
  /-- the first argument that does not fail -/
  | firstSuccess
  /-- the array of two arguments in reverse -/
  | swap
  deriving Repr, DecidableEq

/-- A function, called as `NAME(argument, ...)`. -/
structure Function where
  name : String
  arity : Arity
  rule : FunctionRule
  /-- Positions whose arguments are evaluated only when the function asks for them. -/
  lazyPositions : List Nat
  /-- Positions whose arguments name something (a stat, a status, a skill, a damage type) instead
  of computing a value. -/
  keyPositions : List Nat
  deriving Repr, DecidableEq

namespace Function

/-- Whether the argument at `position` is evaluated on demand. -/
def isLazy (f : Function) (position : Nat) : Bool := position ∈ f.lazyPositions

/-- Whether the argument at `position` is a name. -/
def isKey (f : Function) (position : Nat) : Bool := position ∈ f.keyPositions

end Function

end Skirmish.Formula
