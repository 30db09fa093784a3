/-!
# RON

The notation of the catalogues: lists, maps, records with or without a name, optional values, and
plain names, numbers, characters, bytes and strings. `Ron` is a value, `Ron.Options` is what a text
may switch on, and `Ron.fits` says whether a value stays within a limit of nesting.
-/

namespace Skirmish.Content

/-- A value in the notation. -/
inductive Ron
  /-- `()` -/
  | unit
  | boolean (b : Bool)
  | name (n : String)
  | number (written : List Char)
  | string (s : String)
  | character (c : Char)
  | byte (b : UInt8)
  | bytes (bs : List UInt8)
  /-- `None` -/
  | absent
  /-- `Some` with a value -/
  | given (v : Ron)
  | list (items : List Ron)
  | map (entries : List (Ron × Ron))
  | tuple (name : Option String) (items : List Ron)
  | record (name : Option String) (fields : List (String × Ron))
  deriving Inhabited

/-- What a text may switch on before its value. -/
structure Ron.Options where
  /-- an optional value may be written without `Some` -/
  implicitSome : Bool
  /-- a record must carry its name -/
  explicitNames : Bool
  /-- within `Some`, a record or tuple may be written without brackets of its own -/
  bareVariants : Bool

namespace Ron

/-! ## Options -/

/-- Names of all options. -/
def optionNames : List String :=
  ["unwrap_newtypes", "implicit_some", "unwrap_variant_newtypes", "explicit_struct_names"]

/-- The options with the given names, if they all exist. -/
def options? (names : List String) : Option Options :=
  if names.all (· ∈ optionNames) then
    some
      { implicitSome := "implicit_some" ∈ names
        explicitNames := "explicit_struct_names" ∈ names
        bareVariants := "unwrap_variant_newtypes" ∈ names }
  else none

/-! ## Nesting -/

/-- The values in the brackets of a value. -/
def parts : Ron → List Ron
  | list items => items
  | map entries => entries.flatMap fun (k, v) => [k, v]
  | tuple _ items => items
  | record _ fields => fields.map (·.2)
  | _ => []

/-- Whether a value has brackets of its own, even empty ones. -/
def isBracketed : Ron → Bool
  | given _ | list _ | map _ | tuple _ _ | record _ _ => true
  | _ => false

/-- Whether a value is nested at most this deep. `Some` counts once; other brackets count once, and
once more for what they hold. -/
def fits : (limit : Nat) → Ron → Bool
  | 0, v => !v.isBracketed
  | 1, given v => !v.isBracketed
  | 1, v => v.parts.isEmpty
  | n + 2, given v => fits (n + 1) v
  | n + 2, v => v.parts.all (fits n)

/-- How deep values may be nested. -/
def depthLimit : Nat := 128

end Ron

end Skirmish.Content
