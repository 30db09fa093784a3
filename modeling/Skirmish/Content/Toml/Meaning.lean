import Skirmish.Content.Toml.Basic
import Skirmish.Content.Toml.Number

/-!
# What values in TOML stand for

What a value is as a string, a word, a number, or a table of numbers.
-/

namespace Skirmish.Content.Toml

/-- A string. -/
def asString? : Toml → Option String
  | string s => some s
  | _ => none

/-- A whole number of 64 bits without sign. -/
def asWord? : Toml → Option Nat
  | integer n => if 0 ≤ n ∧ n < UInt64.size then some n.toNat else none
  | _ => none

/-- A number; a whole one may have 64 bits. -/
def asFloat? : Toml → Option Float
  | float x => some x
  | integer n =>
    if fitsWord 64 n then
      some (if n < 0 then -Float.ofNat n.natAbs else Float.ofNat n.natAbs)
    else none
  | _ => none

/-- A table of numbers. -/
def asStats? : Toml → Option (List (String × Float))
  | table _ es => es.mapM fun (k, v) => do return (k, ← v.asFloat?)
  | _ => none

/-- An entry that may be missing. -/
def default? {α : Type} (es : Entries) (name : String) (inner : Toml → Option α) (missing : α) :
    Option α :=
  match es.lookup name with
  | none => some missing
  | some v => inner v

end Skirmish.Content.Toml
