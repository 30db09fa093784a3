/-!
# Faults of formulas

What can be wrong with a formula: the text does not parse (`ParseError`), or a well-formed
expression cannot be evaluated (`EvalError`). Each cause has one wording, one code and one
severity.
-/

namespace Skirmish.Formula

/-- How bad a fault is. -/
inductive Severity
  /-- the same call may succeed later -/
  | recoverable
  /-- the formula or its arguments are wrong -/
  | validation
  /-- a limit that protects the program was hit -/
  | internal
  /-- the state cannot be trusted any more -/
  | fatal
  deriving Repr, DecidableEq

namespace Severity

/-- The severity in words. -/
def text : Severity → String
  | recoverable => "recoverable"
  | validation => "validation"
  | internal => "internal"
  | fatal => "fatal"

/-- Whether trying again can help. -/
def isRecoverable (s : Severity) : Bool := s = recoverable

/-- Whether the fault lies in the program rather than in what it was given. -/
def isInternal (s : Severity) : Bool := s = internal || s = fatal

/-- All severities, mildest first. -/
def all : List Severity := [recoverable, validation, internal, fatal]

end Severity

/-- Why a text is no formula. Positions count tokens from zero. -/
inductive ParseError
  /-- nothing is left once blanks are dropped -/
  | empty
  /-- a minus directly after the name of a function -/
  | minusAfterFunction (function : String)
  /-- a token that can neither start nor continue an expression -/
  | unexpectedToken (token : String) (position : Nat)
  /-- the tokens end where an operand or a bracket should follow -/
  | unexpectedEnd
  /-- a bracket without its partner -/
  | unmatchedParen (position : Nat)
  /-- a name before an opening bracket that is no function -/
  | unknownFunction (name : String)
  /-- a call with the wrong number of arguments -/
  | arity (name : String) (expected : String) (found : Nat)
  /-- tokens after a complete expression -/
  | trailingInput (position : Nat)
  deriving Repr, DecidableEq

namespace ParseError

/-- The wording of the fault. -/
def message : ParseError → String
  | empty => "empty expression"
  | minusAfterFunction f => s!"found minus after function with no '(': {f}"
  | unexpectedToken t p => s!"unexpected token '{t}' at position {p}"
  | unexpectedEnd => "unexpected end of expression"
  | unmatchedParen p => s!"unmatched parenthesis at position {p}"
  | unknownFunction n => s!"unknown function '{n}'"
  | arity n e f => s!"'{n}' expects {e} argument(s), found {f}"
  | trailingInput p => s!"trailing input starting at position {p}"

/-- The code of the fault. -/
def code : ParseError → String
  | empty => "PARSE_EMPTY"
  | minusAfterFunction _ => "PARSE_MINUS_AFTER_FUNCTION"
  | unexpectedToken _ _ => "PARSE_UNEXPECTED_TOKEN"
  | unexpectedEnd => "PARSE_UNEXPECTED_END"
  | unmatchedParen _ => "PARSE_UNMATCHED_PAREN"
  | unknownFunction _ => "PARSE_UNKNOWN_FUNCTION"
  | arity _ _ _ => "PARSE_ARITY"
  | trailingInput _ => "PARSE_TRAILING_INPUT"

/-- The text is what is wrong. -/
def severity (_ : ParseError) : Severity := .validation

end ParseError

/-- Kinds of values, as faults name them. -/
inductive Kind
  | number
  | boolean
  | key
  | entity
  | array
  | operator
  | function
  | modifier
  | null
  deriving Repr, DecidableEq

/-- The name of a kind. -/
def Kind.text : Kind → String
  | number => "number"
  | boolean => "boolean"
  | key => "key"
  | entity => "entity"
  | array => "array"
  | operator => "operator"
  | function => "function"
  | modifier => "stat_modifier"
  | null => "null"

/-- Why an expression has no value. -/
inductive EvalError
  /-- a value of another kind was needed -/
  | mismatch (expected found : Kind)
  /-- no such entity -/
  | unknownEntity (entity : String)
  /-- the entity has no such stat -/
  | unknownStat (entity stat : String)
  /-- no such damage type -/
  | unknownDamageType (name : String)
  /-- no such status -/
  | unknownStatus (name : String)
  /-- no such skill -/
  | unknownSkill (name : String)
  /-- a numbered placeholder without a value -/
  | unknownPlaceholder (placeholder : String) (available : Nat)
  /-- the wrong number of operands or arguments, or one that came unevaluated -/
  | arity (name : String) (found : Nat)
  /-- a pick from an empty array -/
  | emptyArray
  /-- evaluation nested deeper than allowed -/
  | recursionLimit (limit : Nat)
  deriving Repr, DecidableEq

namespace EvalError

/-- The wording of the fault. -/
def message : EvalError → String
  | mismatch expected found => s!"expected {expected.text}, found {found.text}"
  | unknownEntity e => s!"unknown entity '{e}'"
  | unknownStat e s => s!"entity '{e}' has no stat '{s}'"
  | unknownDamageType n => s!"unknown damage type '{n}'"
  | unknownStatus n => s!"unknown status '{n}'"
  | unknownSkill n => s!"unknown skill '{n}'"
  | unknownPlaceholder p n => s!"placeholder '{p}' has no value ({n} supplied)"
  | arity n f => s!"'{n}' received {f} argument(s)"
  | emptyArray => "cannot pick from an empty array"
  | recursionLimit n => s!"recursion limit of {n} exceeded"

/-- The code of the fault. -/
def code : EvalError → String
  | mismatch _ _ => "EVAL_TYPE_MISMATCH"
  | unknownEntity _ => "LOOKUP_UNKNOWN_ENTITY"
  | unknownStat _ _ => "LOOKUP_UNKNOWN_STAT"
  | unknownDamageType _ => "LOOKUP_UNKNOWN_DAMAGE_TYPE"
  | unknownStatus _ => "LOOKUP_UNKNOWN_STATUS"
  | unknownSkill _ => "LOOKUP_UNKNOWN_SKILL"
  | unknownPlaceholder _ _ => "LOOKUP_UNKNOWN_PLACEHOLDER"
  | arity _ _ => "EVAL_ARITY"
  | emptyArray => "EVAL_EMPTY_ARRAY"
  | recursionLimit _ => "EVAL_RECURSION_LIMIT"

/-- How bad the fault is. -/
def severity : EvalError → Severity
  | arity _ _ | recursionLimit _ => .internal
  | emptyArray => .recoverable
  | _ => .validation

end EvalError

/-- Why a text could not be read and evaluated. -/
inductive FormulaError
  | parse (cause : ParseError)
  | eval (cause : EvalError)
  deriving Repr, DecidableEq

namespace FormulaError

/-- The wording of the fault, which names the half that failed. -/
def message : FormulaError → String
  | parse e => s!"parse error: {e.message}"
  | eval e => s!"evaluation error: {e.message}"

/-- The wording of the cause alone. -/
def cause : FormulaError → String
  | parse e => e.message
  | eval e => e.message

/-- The code of the cause. -/
def code : FormulaError → String
  | parse e => e.code
  | eval e => e.code

/-- The severity of the cause. -/
def severity : FormulaError → Severity
  | parse e => e.severity
  | eval e => e.severity

end FormulaError

end Skirmish.Formula
