import Skirmish.Content.Ron.Basic
import Skirmish.Content.Ron.Number

/-!
# What values in RON stand for

What a value is as a string, a number, an optional value, a list, or a record with given fields.
-/

namespace Skirmish.Content.Ron

/-- A string. -/
def asString? : Ron → Option String
  | string s => some s
  | _ => none

/-- A number as a double. -/
def asFloat? : Ron → Option Float
  | number cs => double? cs
  | _ => none

/-- An optional value, of which `inner` says what it stands for. -/
def asOption? {α : Type} (o : Options) (inner : Ron → Option α) : Ron → Option (Option α)
  | absent => some none
  | given v => (inner v).map some
  | v => if o.implicitSome then (inner v).map some else none

/-- A list, of whose items `inner` says what they stand for. -/
def asList? {α : Type} (inner : Ron → Option α) : Ron → Option (List α)
  | list items => items.mapM inner
  | _ => none

/-- A map from strings to numbers. -/
def asStats? : Ron → Option (List (String × Float))
  | map entries => entries.mapM fun (k, v) => do return (← k.asString?, ← v.asFloat?)
  | _ => none

/-- The fields of a record that is called `name`, if it has a name. Known fields must not be
repeated. -/
def asRecord? (o : Options) (expected : String) (known : List String) :
    Ron → Option (List (String × Ron))
  | unit => if o.explicitNames then none else some []
  | record n fields =>
    let names := (fields.map (·.1)).filter (· ∈ known)
    if (n.any (· ≠ expected)) || (o.explicitNames && n.isNone) || !decide names.Nodup then
      none
    else some fields
  | _ => none

/-- A field that must be there. -/
def required? {α : Type} (fields : List (String × Ron)) (name : String) (inner : Ron → Option α) :
    Option α := (fields.lookup name).bind inner

/-- A field that may be missing. -/
def default? {α : Type} (fields : List (String × Ron)) (name : String) (inner : Ron → Option α)
    (missing : α) : Option α :=
  match fields.lookup name with
  | none => some missing
  | some v => inner v

end Skirmish.Content.Ron
