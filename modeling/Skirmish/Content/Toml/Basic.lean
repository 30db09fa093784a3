/-!
# TOML

The notation of the settings: assignments to keys, grouped into tables. `Toml` is a value, and the
functions after it say how assignments and headers change the table that a text builds. A key can
be given a value only once, and a table can be opened only once; a table that another one merely
implies may still be opened.
-/

namespace Skirmish.Content

/-- How a table came about. -/
inductive Toml.Origin
  /-- written in braces; nothing can be added -/
  | inline
  /-- implied by the header of a table inside it -/
  | implied
  /-- opened by a header of its own -/
  | opened
  /-- made by a dotted key -/
  | dotted
  deriving Repr, DecidableEq

/-- A value. -/
inductive Toml
  | string (s : String)
  | integer (n : Int)
  | float (x : Float)
  | boolean (b : Bool)
  | moment (written : List Char)
  | array (items : List Toml)
  | tables (items : List Toml)
  | table (origin : Toml.Origin) (entries : List (String × Toml))
  deriving Inhabited

namespace Toml

/-- Keys with their values, in order. -/
abbrev Entries := List (String × Toml)

/-- Gives a key another value. -/
def replace (key : String) (v : Toml) (es : Entries) : Entries :=
  es.map fun e => if e.1 = key then (key, v) else e

/-- Changes the last table of an array of tables. -/
def onLast? (f : Entries → Option Entries) (items : List Toml) : Option (List Toml) :=
  match items.getLast? with
  | some (table origin es) => do return items.dropLast ++ [table origin (← f es)]
  | _ => none

/-- Gives a dotted key its value. Tables on the way are made, or are such that no header opened
them, or are the last ones of their arrays. Only an `extensible` table may take the value itself: of
those on the way, one that dotted keys made. -/
def assign? (v : Toml) : (extensible : Bool) → (path : List String) → Entries → Option Entries
  | _, [], _ => none
  | extensible, [key], es =>
    if extensible && (es.lookup key).isNone then some (es ++ [(key, v)]) else none
  | _, key :: path, es =>
    match es.lookup key with
    | none => do return es ++ [(key, table .dotted (← assign? v true path []))]
    | some (table .dotted inner) => do
      return replace key (table .dotted (← assign? v true path inner)) es
    | some (table .implied inner) => do
      return replace key (table .implied (← assign? v false path inner)) es
    | some (tables items) => do
      return replace key (tables (← onLast? (assign? v false path) items)) es
    | some _ => none

/-- Changes the table at a path of headers: of an array of tables, the last one. -/
def within? (f : Entries → Option Entries) : (path : List String) → Entries → Option Entries
  | [], es => f es
  | key :: path, es =>
    match es.lookup key with
    | none => do return es ++ [(key, table .implied (← within? f path []))]
    | some (table .inline _) => none
    | some (table origin inner) => do
      return replace key (table origin (← within? f path inner)) es
    | some (tables items) => do
      return replace key (tables (← onLast? (within? f path) items)) es
    | some _ => none

/-- Opens a table. -/
def open? (key : String) (es : Entries) : Option Entries :=
  match es.lookup key with
  | none => some (es ++ [(key, table .opened [])])
  | some (table .implied inner) => some (replace key (table .opened inner) es)
  | some _ => none

/-- Adds a table to an array of tables. -/
def append? (key : String) (es : Entries) : Option Entries :=
  match es.lookup key with
  | none => some (es ++ [(key, tables [table .opened []])])
  | some (tables items) => some (replace key (tables (items ++ [table .opened []])) es)
  | some _ => none

end Toml

end Skirmish.Content
