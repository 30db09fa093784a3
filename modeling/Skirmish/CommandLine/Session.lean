import Skirmish.Battle.Operations
import Skirmish.Content.Directory
import Skirmish.CommandLine.Request

/-!
# Sessions

What the program does on request: it loads content, and then either casts skills and runs ticks,
writing down the combatants after each, or evaluates one formula. A session is a function of the
command line and of the files it names (`Request.files`).
-/

namespace Skirmish.CommandLine

open Skirmish.Formula Skirmish.Battle Skirmish.Content

/-! ## Endings -/

/-- A fault, and what lies behind it. -/
structure Fault where
  message : String
  cause : Option String
  deriving Repr, DecidableEq

/-- A fault as the program reports it, with its cause in lines of its own. -/
def Fault.report (f : Fault) : String :=
  match f.cause with
  | none => "Error: " ++ f.message
  | some cause =>
    let lines := (cause.splitOn "\n").map ("    " ++ ·)
    "Error: " ++ f.message ++ "\n\nCaused by:\n" ++ "\n".intercalate lines

/-- How the program ends. -/
inductive Ending
  | success (output : String)
  | failure (fault : Fault)
  /-- the command line is not understood -/
  | misuse
  deriving Repr, DecidableEq

namespace Ending

/-- The code that the program exits with. -/
def exitCode : Ending → Nat
  | success _ => 0
  | failure _ => 1
  | misuse => 2

/-- What the program has written by then. Nothing is written before a fault. -/
def output : Ending → String
  | success text => text
  | _ => ""

/-- How a command ends. -/
def ofExcept : Except Fault String → Ending
  | .ok text => success text
  | .error fault => failure fault

end Ending

/-! ## Content -/

/-- The directory that the options name. -/
def ContentOptions.source (o : ContentOptions) (read : String → Except FileFault String) :
    Directory := { path := o.path, read }

/-- The battle that the options name. -/
def ContentOptions.load (o : ContentOptions) (read : String → Except FileFault String) :
    Except Fault Battle := do
  let settings ← (o.source read).settings.mapError fun e =>
    { message := s!"loading config from {o.path}", cause := some e.message }
  let settings := { settings with seed := o.seed.getD settings.seed }
  ((o.source read).populated (.new settings)).mapError fun e =>
    { message := s!"loading content from {o.path}", cause := some e.message }

/-- The paths of the files that a request needs. -/
def Request.files : Request → List String
  | run o _ _ _ | eval o _ _ =>
    let dir := o.source fun _ => .error .missing
    (settingsFile :: [Catalogue.damageTypes, .statuses, .skills, .roster].map (·.file)).map
      dir.pathOf
  | _ => []

/-! ## Ticks -/

/-- Casts a skill. -/
def CastOrder.carryOut (order : CastOrder) (b : Battle) : Except Fault Battle :=
  match castSkill order.caster order.target order.skill b with
  | .ok _ b => .ok b
  | .error e _ => .error
    { message := s!"{order.caster} casting {order.skill} on {order.target}"
      cause := some e.message }

/-- The line for a combatant: its key, its hit points with one decimal place, and the number of
its statuses. -/
def combatantLine (hpStat key : String) (c : Combatant) : String :=
  let hp := Decimal.tenths ((c.stat? hpStat).getD 0)
  "  " ++ key.pushn ' ' (12 - key.length) ++ " " ++ "".pushn ' ' (8 - hp.length) ++ hp ++ " hp  " ++
    toString c.statuses.length ++ " statuses\n"

/-- The lines after a tick. -/
def tickLines (tick : Nat) (b : Battle) : String :=
  s!"tick {tick} @ {b.now.text}\n" ++
    String.join (b.combatants.entries.map fun (key, c) => combatantLine b.settings.hpStat key c)

/-- The battle after a tick, whether or not there were faults. -/
def updated (b : Battle) : Battle :=
  match update b with
  | .ok _ b => b
  | .error _ b => b

/-- The lines after each of `n` ticks, of which the first has the number `tick`. -/
def runTicks (step : Int64) : (n tick : Nat) → Battle → List String
  | 0, _, _ => []
  | n + 1, tick, b =>
    let b := updated b
    tickLines tick b :: runTicks step n (tick + 1) (b.advance step)

/-! ## Formulas -/

/-- The text of a formula's value, over the stats of a combatant if there is one. -/
def evaluateText (entity : Option String) (formula : String) (b : Battle) :
    Except Fault String :=
  match entity with
  | some key =>
    match compoundStat key formula b with
    | .ok x _ => .ok (Decimal.text x)
    | .error e _ => .error { message := e.message, cause := e.cause? }
  | none =>
    match evaluate formula b with
    | .ok v _ => .ok v.text
    | .error e _ => .error { message := e.message, cause := some e.cause }

/-! ## Requests -/

/-- The name of the program and its version. -/
def versionText : String := "combat-sim 0.1.0\n"

/-- The help on the options that all commands share. -/
def sharedHelp : String :=
  "      --data-dir <DATA_DIR>  Directory holding config.toml and the RON catalogs [default:\n" ++
  "                             crates/game/content/data]\n" ++
  "      --seed <SEED>          Override the configured RNG seed\n" ++
  "  -h, --help                 Print help\n"

/-- The help on a topic. -/
def Topic.text : Topic → String
  | program =>
    "Run designer combat content from the command line\n\n" ++
    "Usage: combat-sim <COMMAND>\n\n" ++
    "Commands:\n" ++
    "  run   Cast skills, then advance the stepped clock and update every entity\n" ++
    "  eval  Evaluate one formula against the loaded content\n" ++
    "  help  Print this message or the help of the given subcommand(s)\n\n" ++
    "Options:\n" ++
    "  -h, --help     Print help\n" ++
    "  -V, --version  Print version\n"
  | run =>
    "Cast skills, then advance the stepped clock and update every entity\n\n" ++
    "Usage: combat-sim run [OPTIONS]\n\n" ++
    "Options:\n" ++
    "      --ticks <TICKS>        Number of updates to run [default: 10]\n" ++
    "      --step-ms <STEP_MS>    Milliseconds the clock advances between updates " ++
    "[default: 1000]\n" ++
    "      --cast <CASTS>         Skill casts performed before the first update, as " ++
    "caster:target:skill\n" ++ sharedHelp
  | eval =>
    "Evaluate one formula against the loaded content\n\n" ++
    "Usage: combat-sim eval [OPTIONS] <FORMULA>\n\n" ++
    "Arguments:\n" ++
    "  <FORMULA>  Formula text, e.g. \"GET_PROP(knight,STR)*2\"\n\n" ++
    "Options:\n" ++
    "      --entity <ENTITY>      Resolve bare stat names against this entity\n" ++ sharedHelp

/-- Does what is asked for. -/
def Request.carryOut (read : String → Except FileFault String) : Request → Ending
  | version => .success versionText
  | help topic => .success topic.text
  | run content ticks step casts => .ofExcept do
    let b ← content.load read
    let b ← casts.foldlM (fun b order => order.carryOut b) b
    return String.join (runTicks step ticks.toNat 0 b)
  | eval content formula entity => .ofExcept do
    let b ← content.load read
    return (← evaluateText entity formula b) ++ "\n"

/-- A whole session. -/
def session (read : String → Except FileFault String) (arguments : List String) : Ending :=
  match Request.ofArguments arguments with
  | none => .misuse
  | some request => request.carryOut read

end Skirmish.CommandLine
