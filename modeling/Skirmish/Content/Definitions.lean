import Skirmish.Battle.Definitions
import Skirmish.Content.Ron.Meaning
import Skirmish.Content.Ron.Reading
import Skirmish.Content.Toml.Meaning
import Skirmish.Content.Toml.Reading

/-!
# What the files define

A directory of content has one file of settings and four catalogues (`Catalogue`), each a list of
definitions. Settings that are left out are the standard ones; fields that no definition has are
passed over.
-/

namespace Skirmish.Content

open Skirmish.Battle

/-- The files of definitions. -/
inductive Catalogue
  | damageTypes
  | statuses
  | skills
  | roster
  deriving Repr, DecidableEq

namespace Catalogue

/-- The name of the file. -/
def file : Catalogue → String
  | damageTypes => "damage_types.ron"
  | statuses => "statuses.ron"
  | skills => "skills.ron"
  | roster => "entities.ron"

/-- What the file defines. -/
def noun : Catalogue → String
  | damageTypes => "damage type"
  | statuses => "status"
  | skills => "skill"
  | roster => "entity"

end Catalogue

/-- The name of the file of settings. -/
def settingsFile : String := "config.toml"

/-! ## Definitions -/

/-- A formula that may be left out. -/
def formula? (o : Ron.Options) (fields : List (String × Ron)) (name : String) :
    Option (Option String) :=
  Ron.default? fields name (Ron.asOption? o Ron.asString?) none

/-- A damage type; every field may be left out. -/
def damageType? (o : Ron.Options) (v : Ron) : Option DamageTypeDefinition := do
  let fields ← v.asRecord? o "DamageTypeDef"
    ["key", "mitigation", "dodge", "crit_chance", "crit_modifier"]
  let key ← Ron.default? fields "key" Ron.asString? ""
  let mitigation ← formula? o fields "mitigation"
  let dodge ← formula? o fields "dodge"
  let critChance ← formula? o fields "crit_chance"
  let critModifier ← formula? o fields "crit_modifier"
  return { key, mitigation, dodge, critChance, critModifier }

/-- A way of stacking, in lower case. -/
def stacking? : Ron → Option Stacking
  | .name n => Stacking.all.find? (·.text = n)
  | _ => none

/-- A status; every field may be left out, and it then ticks every second. -/
def status? (o : Ron.Options) (v : Ron) : Option StatusDefinition := do
  let fields ← v.asRecord? o "StatusDef"
    ["key", "stacking", "max_stacks", "interval", "components"]
  let key ← Ron.default? fields "key" Ron.asString? ""
  let stacking ← Ron.default? fields "stacking" stacking? .refresh
  let maxStacks ← formula? o fields "max_stacks"
  let interval ← Ron.default? fields "interval" Ron.asString? "1"
  let components ← Ron.default? fields "components" (Ron.asList? Ron.asString?) []
  return { key, stacking, maxStacks, interval, components }

/-- A skill. -/
def skill? (o : Ron.Options) (v : Ron) : Option SkillDefinition := do
  let fields ← v.asRecord? o "SkillDef" ["key", "formula"]
  let key ← Ron.required? fields "key" Ron.asString?
  let formula ← Ron.required? fields "formula" Ron.asString?
  return { key, formula }

/-- A side, in lower case. -/
def side? : Ron → Option Side
  | .name n => Side.ofText? n
  | _ => none

/-- A combatant. Of a stat that is given twice the last value counts. -/
def combatant? (o : Ron.Options) (v : Ron) : Option CombatantDefinition := do
  let fields ← v.asRecord? o "EntityDef" ["key", "name", "kind", "stats"]
  let key ← Ron.required? fields "key" Ron.asString?
  let name ← Ron.required? fields "name" Ron.asString?
  let side ← Ron.required? fields "kind" side?
  let stats ← Ron.default? fields "stats" Ron.asStats? []
  return { key, name, side, stats := .ofList stats }

/-- The definitions of a catalogue. -/
def definitions? {α : Type} (definition? : Ron.Options → Ron → Option α) (text : String) :
    Option (List α) := do
  let (o, v) ← Ron.read? text
  v.asList? (definition? o)

/-- A format of the catalogues: what the text of each of them defines, if it is well-formed. -/
structure Format where
  damageTypes : String → Option (List DamageTypeDefinition)
  statuses : String → Option (List StatusDefinition)
  skills : String → Option (List SkillDefinition)
  roster : String → Option (List CombatantDefinition)

/-- The catalogues are written in RON. -/
def Format.ron : Format where
  damageTypes := definitions? damageType?
  statuses := definitions? status?
  skills := definitions? skill?
  roster := definitions? combatant?

/-! ## Settings -/

/-- The settings. A table of default stats replaces the standard one. -/
def settings? (text : String) : Option Settings := do
  let es ← Toml.read? text
  let s := Settings.standard
  let defaultStats ← Toml.default? es "default_stats" (·.asStats?.map .ofList) s.defaultStats
  let hpStat ← Toml.default? es "hp_stat" Toml.asString? s.hpStat
  let reentryLimit ← Toml.default? es "max_reentry_depth" Toml.asWord? s.reentryLimit
  let seed ← Toml.default? es "rng_seed" (·.asWord?.map .ofNat) s.seed
  return { defaultStats, hpStat, reentryLimit, seed }

end Skirmish.Content
