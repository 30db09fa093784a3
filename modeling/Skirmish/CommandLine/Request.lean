/-!
# Requests

What a command line asks for. Arguments are read from left to right, and the first that settles the
matter does so: a fault, or a question for help or for the version. Options may stand anywhere,
their values behind them or behind an equals sign; after two hyphens there are no more options.
`Request.ofArguments` gives nothing for a command line that is not understood.
-/

namespace Skirmish.CommandLine

/-- A skill to be cast before the first tick. -/
structure CastOrder where
  caster : String
  target : String
  skill : String
  deriving Repr, DecidableEq

/-- Splits a text at the first character `c`. -/
def splitAt? (c : Char) (cs : List Char) : Option (List Char × List Char) :=
  match cs.span (· ≠ c) with
  | (before, _ :: after) => some (before, after)
  | (_, []) => none

/-- Reads an order: caster, target and skill between colons, none of them empty. The skill may hold
colons. -/
def CastOrder.ofText? (text : String) : Option CastOrder := do
  let (caster, rest) ← splitAt? ':' text.toList
  let (target, skill) ← splitAt? ':' rest
  if caster.isEmpty || target.isEmpty || skill.isEmpty then none
  else return ⟨.ofList caster, .ofList target, .ofList skill⟩

/-- Options that all commands share. -/
structure ContentOptions where
  directory : Option String := none
  /-- replaces the seed of the settings -/
  seed : Option UInt64 := none
  deriving Repr, DecidableEq

/-- The directory of content. -/
def ContentOptions.path (o : ContentOptions) : String :=
  o.directory.getD "crates/game/content/data"

/-- Options of the command that runs ticks. -/
structure RunOptions where
  content : ContentOptions := {}
  ticks : Option UInt32 := none
  /-- milliseconds between ticks -/
  step : Option Int64 := none
  casts : List CastOrder := []
  deriving Repr, DecidableEq

/-- Options of the command that evaluates a formula. -/
structure EvalOptions where
  content : ContentOptions := {}
  formula : Option String := none
  /-- whose stats the formula may name -/
  entity : Option String := none
  deriving Repr, DecidableEq

/-- What help is asked about. -/
inductive Topic
  | program
  | run
  | eval
  deriving Repr, DecidableEq

/-- What a command line asks for. -/
inductive Request
  | version
  | help (topic : Topic)
  | run (content : ContentOptions) (ticks : UInt32) (step : Int64) (casts : List CastOrder)
  | eval (content : ContentOptions) (formula : String) (entity : Option String)
  deriving Repr, DecidableEq

/-! ## Values of options -/

/-- Reads a whole number, with a sign or without. -/
def int? (text : String) : Option Int :=
  match text.toList with
  | '-' :: cs => (digits? cs).map fun n => -(n : Int)
  | '+' :: cs => (digits? cs).map Int.ofNat
  | cs => (digits? cs).map Int.ofNat
where
  /-- Reads digits. -/
  digits? (cs : List Char) : Option Nat :=
    if cs.isEmpty || !cs.all Char.isDigit then none
    else some (cs.foldl (fun n c => 10 * n + (c.toNat - '0'.toNat)) 0)

/-- Reads a whole number from `low` to `high`. -/
def intBetween? (low high : Int) (text : String) : Option Int := do
  let n ← int? text
  if low ≤ n ∧ n ≤ high then return n else none

/-- Reads a number of ticks. -/
def ticks? (text : String) : Option UInt32 :=
  (intBetween? 0 (UInt32.size - 1 : Nat) text).map fun n => .ofNat n.toNat

/-- Reads a step in milliseconds. -/
def step? (text : String) : Option Int64 :=
  (intBetween? Int64.minValue.toInt Int64.maxValue.toInt text).map .ofInt

/-- Reads a seed, which has no minus sign. -/
def seed? (text : String) : Option UInt64 :=
  if text.startsWith "-" then none
  else (intBetween? 0 (UInt64.size - 1 : Nat) text).map fun n => .ofNat n.toNat

/-! ## Options -/

/-- Fills a place that must still be free. -/
def fill {α : Type} (place value : Option α) : Option (Option α) :=
  if place.isSome || value.isNone then none else some value

/-- Takes an option that all commands share. -/
def ContentOptions.take (o : ContentOptions) (name value : String) : Option ContentOptions :=
  match name with
  | "data-dir" => do
    return { o with directory := ← fill o.directory (if value.isEmpty then none else some value) }
  | "seed" => do return { o with seed := ← fill o.seed (seed? value) }
  | _ => none

/-- A command with options: the names of those of its own, what it does with an option, and with
an argument that belongs to none. -/
structure Grammar (σ : Type) where
  names : List String
  topic : Topic
  option : σ → (name value : String) → Option σ
  operand : σ → (text : String) → Option σ

/-- Names of the options that all commands share. -/
def sharedNames : List String := ["data-dir", "seed"]

/-- Options of the command that runs ticks. -/
def runGrammar : Grammar RunOptions where
  names := ["ticks", "step-ms", "cast"] ++ sharedNames
  topic := .run
  option o name value :=
    match name with
    | "ticks" => do return { o with ticks := ← fill o.ticks (ticks? value) }
    | "step-ms" => do return { o with step := ← fill o.step (step? value) }
    | "cast" => do return { o with casts := o.casts ++ [← CastOrder.ofText? value] }
    | _ => do return { o with content := ← o.content.take name value }
  operand _ _ := none

/-- Options of the command that evaluates a formula. -/
def evalGrammar : Grammar EvalOptions where
  names := "entity" :: sharedNames
  topic := .eval
  option o name value :=
    match name with
    | "entity" => do return { o with entity := ← fill o.entity (some value) }
    | _ => do return { o with content := ← o.content.take name value }
  operand o text := do return { o with formula := ← fill o.formula (some text) }

/-! ## Arguments -/

/-- What an argument is by its looks. -/
inductive Argument
  /-- two hyphens -/
  | divider
  /-- two hyphens and a name, with a value or without -/
  | long (name : String) (value : Option String)
  /-- a hyphen and letters, of which the first counts -/
  | short (letter : Char)
  | plain (text : String)

/-- Looks at an argument. -/
def Argument.ofText (text : String) : Argument :=
  match text.toList with
  | ['-', '-'] => .divider
  | '-' :: '-' :: cs =>
    match splitAt? '=' cs with
    | some (name, value) => .long (.ofList name) (some (.ofList value))
    | none => .long (.ofList cs) none
  | '-' :: c :: _ => .short c
  | _ => .plain text

/-- Reads the arguments of a command: its options in the end, or the topic of a question for
help. -/
def Grammar.parse {σ : Type} (g : Grammar σ) : List String → σ → Option (σ ⊕ Topic)
  | [], o => some (.inl o)
  | text :: rest, o =>
    match Argument.ofText text with
    | .divider => do return .inl (← rest.foldlM g.operand o)
    | .plain text => do g.parse rest (← g.operand o text)
    | .short c => if c = 'h' then some (.inr g.topic) else none
    | .long name (some value) =>
      if name ∈ g.names then do g.parse rest (← g.option o name value) else none
    | .long name none =>
      if name = "help" then some (.inr g.topic)
      else if name ∈ g.names then
        match rest with
        | [] => none
        | value :: rest =>
          match Argument.ofText value with
          | .plain value => do g.parse rest (← g.option o name value)
          | _ => none
      else none

/-! ## Command lines -/

/-- The topic that words after `help` name. -/
def Topic.ofWords? : List String → Option Topic
  | [] => some .program
  | ["run"] => some .run
  | ["eval"] => some .eval
  | ["help"] => some .program
  | _ => none

/-- The request for a run. -/
def RunOptions.request (o : RunOptions) : Request :=
  .run o.content (o.ticks.getD 10) (o.step.getD 1000) o.casts

/-- The request for an evaluation, which needs a formula. -/
def EvalOptions.request? (o : EvalOptions) : Option Request :=
  o.formula.map fun formula => .eval o.content formula o.entity

/-- What a command line asks for. -/
def Request.ofArguments : List String → Option Request
  | [] => none
  | "run" :: rest =>
    match runGrammar.parse rest {} with
    | some (.inl o) => some o.request
    | some (.inr topic) => some (.help topic)
    | none => none
  | "eval" :: rest =>
    match evalGrammar.parse rest {} with
    | some (.inl o) => o.request?
    | some (.inr topic) => some (.help topic)
    | none => none
  | "help" :: rest => (Topic.ofWords? rest).map .help
  | text :: _ =>
    match Argument.ofText text with
    | .long "version" none => some .version
    | .long "help" none => some (.help .program)
    | .short 'V' => some .version
    | .short 'h' => some (.help .program)
    | _ => none

end Skirmish.CommandLine
