import Skirmish.Decimal.Text
import Skirmish.Formula.Error
import Skirmish.Formula.Symbol

/-!
# Values

What a formula evaluates to. Access is strict: a value of one kind is never taken for another,
except that an entity still answers to its name where a name is wanted (`Value.asKey`).
-/

namespace Skirmish.Formula

/-- A value. A `key` is any text that is not a number: a stat, a status, a skill, a damage type,
a placeholder, or an entity that is not there. -/
inductive Value
  | number (x : Float)
  | boolean (b : Bool)
  | key (name : String)
  | entity (name : String)
  | array (items : List Value)
  | operator (op : Operator)
  | function (f : Function)
  | modifier (stat : String) (amount : Float)
  | null
  deriving Inhabited

namespace Value

/-- The kind of a value. -/
def kind : Value → Kind
  | number _ => .number
  | boolean _ => .boolean
  | key _ => .key
  | entity _ => .entity
  | array _ => .array
  | operator _ => .operator
  | function _ => .function
  | modifier _ _ => .modifier
  | null => .null

/-- The fault of a value of the wrong kind. -/
def mismatch (v : Value) (expected : Kind) : EvalError := .mismatch expected v.kind

/-! ## Access by kind -/

/-- A number. -/
def asNumber : Value → Except EvalError Float
  | number x => .ok x
  | v => .error (v.mismatch .number)

/-- A truth value. -/
def asBoolean : Value → Except EvalError Bool
  | boolean b => .ok b
  | v => .error (v.mismatch .boolean)

/-- A name. An entity answers with its own name. -/
def asKey : Value → Except EvalError String
  | key name => .ok name
  | entity name => .ok name
  | v => .error (v.mismatch .key)

/-- An entity. A bare key here is one that the world does not know. -/
def asEntity : Value → Except EvalError String
  | entity name => .ok name
  | key name => .error (.unknownEntity name)
  | v => .error (v.mismatch .entity)

/-- The elements of an array. -/
def asArray : Value → Except EvalError (List Value)
  | array items => .ok items
  | v => .error (v.mismatch .array)

/-- A change to a stat: which stat, and by how much. -/
def asModifier : Value → Except EvalError (String × Float)
  | modifier stat amount => .ok (stat, amount)
  | v => .error (v.mismatch .modifier)

/-- An operator. -/
def asOperator : Value → Except EvalError Operator
  | operator op => .ok op
  | v => .error (v.mismatch .operator)

/-- A function. -/
def asFunction : Value → Except EvalError Function
  | function f => .ok f
  | v => .error (v.mismatch .function)

/-- All elements as numbers; the first that is none is the fault. -/
def numbers (items : List Value) : Except EvalError (List Float) := items.mapM asNumber

/-! ## Text -/

mutual

/-- The value as it is shown. -/
def text : Value → String
  | number x => Decimal.text x
  | boolean b => if b then "true" else "false"
  | key name => name
  | entity name => "@" ++ name
  | array items => "[" ++ textItems items ++ "]"
  | operator op => op.symbol
  | function f => f.name
  | modifier stat amount => stat ++ Decimal.signedText amount
  | null => "null"

/-- The elements of an array, with commas between them. -/
def textItems : List Value → String
  | [] => ""
  | [v] => v.text
  | v :: w :: rest => v.text ++ ", " ++ textItems (w :: rest)

end

end Value

end Skirmish.Formula
