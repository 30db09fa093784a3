import Skirmish.Formula.Operation
import Skirmish.Formula.Reading
import Skirmish.Formula.World

/-!
# Evaluation

`Expr.eval` walks an expression once, operands and arguments from left to right. Nothing is
remembered: equal subexpressions are evaluated anew wherever they stand, for the world may have
changed between them. An argument in a lazy position is not evaluated but handed to the function
as an action, which the function runs if it wants the value (`Arg.force`).

An evaluation may nest `Evaluation.limit` expressions. Its depth is part of the state of an
evaluation and is back where it was after each expression, also after a failed one.
-/

namespace Skirmish.Formula

/-- The state of an evaluation: the world's state, and how many expressions are being evaluated
around the current one. -/
structure Evaluation (σ : Type) where
  state : σ
  depth : Nat

namespace Evaluation

variable {σ α : Type}

/-- How many expressions may be nested. -/
def limit : Nat := 256

/-- Runs an action one level deeper, or refuses at the limit. -/
def nested (act : Action (Evaluation σ) α) : Action (Evaluation σ) α := fun s =>
  if limit ≤ s.depth then .error (.recursionLimit limit) s
  else
    match act { s with depth := s.depth + 1 } with
    | .ok a t => .ok a { t with depth := t.depth - 1 }
    | .error e t => .error e { t with depth := t.depth - 1 }

/-- A pure computation, as an action. -/
def lift (x : Except EvalError α) : Action (Evaluation σ) α :=
  match x with
  | .ok a => pure a
  | .error e => throw e

/-- A question about the world's state. -/
def ask (question : σ → α) : Action (Evaluation σ) α := fun s => .ok (question s.state) s

/-- An action on the world's state. -/
def perform (act : Action σ α) : Action (Evaluation σ) α := fun s =>
  match act s.state with
  | .ok a t => .ok a { s with state := t }
  | .error e t => .error e { s with state := t }

/-- A roll below `upper`. -/
def roll (w : World σ) (upper : UInt32) : Action (Evaluation σ) UInt32 := fun s =>
  let (n, t) := w.roll upper s.state
  .ok n { s with state := t }

end Evaluation

open Evaluation (nested lift ask perform roll)

/-- An argument of a call: a value, or an expression that waits to be evaluated. -/
inductive Arg (σ : Type)
  | value (v : Value)
  | deferred (run : Action (Evaluation σ) Value)

namespace Arg

variable {σ : Type}

/-- The value of an argument, evaluated now if it waits. -/
def force : Arg σ → Action (Evaluation σ) Value
  | value v => pure v
  | deferred run => run

/-- The value of an argument that does not wait. -/
def value? : Arg σ → Option Value
  | value v => some v
  | deferred _ => none

end Arg

/-- A percentage as a number of rolls out of a thousand: the roll has to stay below it. -/
def rollSucceeds (roll : UInt32) (percent : Float) : Bool := roll.toFloat < percent * 10

/-- The number of whole numbers from `low` up to but not including `high`, at most all words. -/
def rollSpan (low high : Float) : UInt32 := (smaller (high - low) 4294967295).toUInt32

namespace Function

variable {σ : Type}

/-- The value of the argument at `i`. One that is missing or waits is a fault of the call. -/
def eager (f : Function) (args : List (Arg σ)) (i : Nat) : Except EvalError Value :=
  match args[i]?.bind Arg.value? with
  | some v => .ok v
  | none => .error (.arity f.name args.length)

/-- All arguments, as values. -/
def eagerValues (f : Function) (args : List (Arg σ)) : Except EvalError (List Value) :=
  (List.range args.length).mapM (f.eager args)

/-- All arguments, as numbers. -/
def eagerNumbers (f : Function) (args : List (Arg σ)) : Except EvalError (List Float) :=
  (List.range args.length).mapM fun i => do (← f.eager args i).asNumber

/-- Evaluates arguments in order until one succeeds; `last` is the fault if none does. -/
def firstSuccess (last : EvalError) : List (Arg σ) → Action (Evaluation σ) Value
  | [] => throw last
  | a :: rest => fun s =>
    match a.force s with
    | .ok v t => .ok v t
    | .error e t => firstSuccess e rest t

/-- What a function does with its arguments in a world. -/
def run (w : World σ) (f : Function) (args : List (Arg σ)) : Action (Evaluation σ) Value :=
  match f.rule with
  | .largest => do
    return .number (largest (← lift (f.eagerNumbers args)))
  | .smallest => do
    return .number (smallest (← lift (f.eagerNumbers args)))
  | .magnitude => do
    let x ← lift do (← f.eager args 0).asNumber
    return .number x.abs
  | .nonNegative => do
    let x ← lift do (← f.eager args 0).asNumber
    return .number (if x > 0 then x else 0)
  | .random => do
    let low := (← lift do (← f.eager args 0).asNumber).floor
    let high := (← lift do (← f.eager args 1).asNumber).floor
    if high > low then
      let n ← roll w (rollSpan low high)
      return .number (low + n.toFloat)
    else return .number low
  | .harm => do
    let target ← lift do (← f.eager args 0).asKey
    let source ← lift do (← f.eager args 1).asKey
    let type ← lift do (← f.eager args 2).asKey
    let amount ← lift do (← f.eager args 3).asNumber
    perform (w.harm target source type amount)
    return .null
  | .heal => do
    let target ← lift do (← f.eager args 0).asKey
    let source ← lift do (← f.eager args 1).asKey
    let amount ← lift do (← f.eager args 2).asNumber
    perform (w.heal target source amount)
    return .null
  | .array => do
    return .array (← lift (f.eagerValues args))
  | .players => do
    return .array ((← ask w.players).map .entity)
  | .activePlayers => do
    return .array ((← ask w.activePlayers).map .entity)
  | .stat => do
    let entity ← lift do (← f.eager args 0).asEntity
    let stat ← lift do (← f.eager args 1).asKey
    return .number (← lift (← ask (w.stat · entity stat)))
  | .choose => do
    if ← lift do (← f.eager args 0).asBoolean then
      (args.getD 1 (.value .null)).force
    else (args.getD 2 (.value .null)).force
  | .pick => do
    let items ← lift do (← f.eager args 0).asArray
    if items.isEmpty then throw .emptyArray
    else
      let n ← roll w (UInt32.ofNat (min items.length 4294967295))
      return items.getD n.toNat .null
  | .chance => do
    let percent ← lift do (← f.eager args 0).asNumber
    return .boolean (rollSucceeds (← roll w 1000) percent)
  | .cast => do
    let caster ← lift do (← f.eager args 0).asEntity
    let target ← lift do (← f.eager args 1).asEntity
    let skill ← lift do (← f.eager args 2).asKey
    perform (w.cast caster target skill)
    return .null
  | .modifier => do
    let stat ← lift do (← f.eager args 0).asKey
    let amount ← lift do (← f.eager args 1).asNumber
    return .modifier stat amount
  | .inflict => do
    let target ← lift do (← f.eager args 0).asEntity
    let source ← lift do (← f.eager args 1).asEntity
    let status ← lift do (← f.eager args 2).asKey
    let duration ← lift do (← f.eager args 3).asNumber
    let values ← lift do Value.numbers (← (← f.eager args 4).asArray)
    perform (w.inflict target source status duration values)
    return .null
  | .total => do
    return .number ((← lift (f.eagerNumbers args)).foldl (· + ·) 0)
  | .larger => do
    let x ← lift do (← f.eager args 0).asNumber
    let y ← lift do (← f.eager args 1).asNumber
    return .number (if y > x then y else x)
  | .firstSuccess => firstSuccess (.arity f.name args.length) args
  | .swap => do
    let a ← lift (f.eager args 0)
    let b ← lift (f.eager args 1)
    return .array [b, a]

/-- Calls a function with as many arguments as it takes. -/
def call (w : World σ) (f : Function) (args : List (Arg σ)) : Action (Evaluation σ) Value :=
  if f.arity.accepts args.length then f.run w args
  else throw (.arity f.name args.length)

end Function

namespace Expr

variable {σ : Type}

/-- A value at a leaf: a key that names an entity becomes that entity, an operator or function
alone has nothing to work on, and everything else is its own value. -/
def evalLeaf (w : World σ) : Value → Action (Evaluation σ) Value
  | .key name => do
    if ← ask (w.entityExists · name) then return .entity name else return .key name
  | .operator op => lift (op.apply [])
  | .function f => f.call w []
  | v => return v

mutual

/-- Evaluates an expression. -/
def eval (w : World σ) : Expr → Action (Evaluation σ) Value
  | leaf v => nested (evalLeaf w v)
  | apply op operands => nested do lift (op.apply (← evalOperands w operands))
  | call f arguments => nested do f.call w (← evalArguments w f 0 arguments)

/-- Evaluates operands in order. -/
def evalOperands (w : World σ) : List Expr → Action (Evaluation σ) (List Value)
  | [] => return []
  | e :: rest => do
    let v ← eval w e
    return v :: (← evalOperands w rest)

/-- Evaluates the arguments of a call in order, from position `i` on, and leaves those in lazy
positions for the function. -/
def evalArguments (w : World σ) (f : Function) (i : Nat) :
    List Expr → Action (Evaluation σ) (List (Arg σ))
  | [] => return []
  | e :: rest => do
    let a ← if f.isLazy i then pure (Arg.deferred (eval w e)) else Arg.value <$> eval w e
    return a :: (← evalArguments w f (i + 1) rest)

end

/-- Evaluates an expression from the outside. -/
def resolve (w : World σ) (e : Expr) : Action σ Value := fun s =>
  match e.eval w ⟨s, 0⟩ with
  | .ok v t => .ok v t.state
  | .error err t => .error err t.state

end Expr

/-- Reads a text and evaluates it. -/
def evaluate {σ : Type} (v : Vocabulary) (w : World σ) (text : String) :
    EStateM FormulaError σ Value := fun s =>
  match Expr.parse v text with
  | .error e => .error (.parse e) s
  | .ok e =>
    match e.resolve w s with
    | .ok v t => .ok v t
    | .error err t => .error (.eval err) t

end Skirmish.Formula
