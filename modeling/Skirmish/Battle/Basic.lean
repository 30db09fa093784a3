import Skirmish.Battle.Definitions
import Skirmish.Battle.Log
import Skirmish.Formula.World

/-!
# Battles

The state of a battle: who takes part, what is defined, the clock, the log, the dice, and how deep
formulas are acting on the battle from within each other. Combatants are kept in the order of their
keys, and a key belongs to one combatant on either side.
-/

namespace Skirmish

open Skirmish.Formula Skirmish.Battle

/-- The state of a battle. -/
structure Battle where
  settings : Settings
  /-- what formulas are read and bound with -/
  vocabulary : Vocabulary
  combatants : Table Combatant
  damageTypes : Table DamageType
  effects : Table StatusEffect
  skills : Table Skill
  now : Timestamp
  log : Log
  dice : Generator
  /-- how many formulas act on the battle from within each other -/
  depth : Nat
  /-- the id of the next status that is applied; it starts at zero and grows by one with each
  application, so that it would take 2 ^ 64 of them to leave a word of 64 bits -/
  nextStatusId : Nat

/-- Why an operation on a battle failed. -/
inductive BattleError
  | invalidFormula (text : String) (cause : ParseError)
  | eval (cause : EvalError)
  | unknownEntity (key : String)
  | duplicateEntity (key : String)
  deriving Repr, DecidableEq

namespace BattleError

/-- The wording of the fault. -/
def message : BattleError → String
  | invalidFormula text e => s!"formula '{text}' is invalid: {e.message}"
  | eval e => e.message
  | unknownEntity key => s!"unknown entity '{key}'"
  | duplicateEntity key => s!"entity '{key}' is already registered"

/-- The wording of what lies behind the fault, if that is another one. -/
def cause? : BattleError → Option String
  | invalidFormula _ e => some e.message
  | _ => none

/-- The code of the fault. -/
def code : BattleError → String
  | invalidFormula _ _ => "ENGINE_INVALID_FORMULA"
  | eval e => e.code
  | unknownEntity _ => "ENGINE_UNKNOWN_ENTITY"
  | duplicateEntity _ => "ENGINE_DUPLICATE_ENTITY"

/-- How bad the fault is. -/
def severity : BattleError → Severity
  | eval e => e.severity
  | _ => .validation

end BattleError

namespace Battle

/-- An operation on a battle. The battle survives a failure. -/
abbrev Operation := EStateM BattleError Battle

/-- A battle without combatants or definitions. -/
def new (settings : Settings) (vocabulary : Vocabulary := .standard) (now : Timestamp := ⟨0⟩)
    (log : Log := .discarded) : Battle where
  settings
  vocabulary
  combatants := .empty
  damageTypes := .empty
  effects := .empty
  skills := .empty
  now
  log
  dice := .ofSeed settings.seed
  depth := 0
  nextStatusId := 0

/-! ## Looking things up -/

/-- The combatant with that key. -/
def combatant? (b : Battle) (key : String) : Option Combatant := b.combatants.get? key

/-- Whether there is a combatant with that key. -/
def contains (b : Battle) (key : String) : Bool := b.combatants.contains key

/-- Keys of the combatants that satisfy `p`, in order. -/
def keysWhere (b : Battle) (p : Combatant → Bool) : List String :=
  (b.combatants.entries.filter (p ·.2)).map (·.1)

/-- The players, in order. -/
def players (b : Battle) : List String := b.keysWhere Combatant.isPlayer

/-- The players with hit points left, in order. -/
def activePlayers (b : Battle) : List String :=
  b.keysWhere fun c => c.isPlayer && (c.stat? b.settings.hpStat).any (· > 0)

/-- The current stat of a combatant. -/
def stat? (b : Battle) (key stat : String) : Option Float :=
  (b.combatant? key).bind (·.stat? stat)

/-- The current stat of a combatant, or which of the two is missing. -/
def statOrFault (b : Battle) (key stat : String) : Except EvalError Float :=
  match b.combatant? key with
  | none => .error (.unknownEntity key)
  | some c =>
    match c.stat? stat with
    | none => .error (.unknownStat key stat)
    | some x => .ok x

/-- Whether a combatant has a stat of that name. -/
def hasStat (b : Battle) (key stat : String) : Bool := (b.combatant? key).any (·.hasStat stat)

/-! ## Registering -/

/-- Adds a combatant under a key that is free. -/
def insert (key : String) (c : Combatant) : Operation Unit := fun b =>
  if b.contains key then .error (.duplicateEntity key) b
  else .ok () { b with combatants := b.combatants.insert key c }

/-- Adds a combatant with the default stats. -/
def add (key name : String) (side : Side) : Operation Unit := fun b =>
  insert key (.new name side b.settings.defaultStats) b

/-- Removes a combatant. The statuses it applied to others stay. -/
def remove (b : Battle) (key : String) : Battle :=
  { b with combatants := b.combatants.erase key }

/-- Changes a combatant, if there is one with that key. -/
def alter (b : Battle) (key : String) (f : Combatant → Combatant) : Battle :=
  { b with combatants := b.combatants.modify key f }

/-- Registers a damage type in place of its namesake. -/
def addDamageType (b : Battle) (d : DamageType) : Battle :=
  { b with damageTypes := b.damageTypes.insert d.key d }

/-- Registers a status effect in place of its namesake. -/
def addEffect (b : Battle) (e : StatusEffect) : Battle :=
  { b with effects := b.effects.insert e.key e }

/-- Registers a skill in place of its namesake. -/
def addSkill (b : Battle) (s : Skill) : Battle := { b with skills := b.skills.insert s.key s }

/-- Adds an event to the log. -/
def record (b : Battle) (e : Event) : Battle := { b with log := b.log.record e }

/-! ## What registering changes

A change to one combatant is seen at its key alone, and nothing else of the battle changes. -/

@[simp] theorem combatant?_alter (b : Battle) (key other : String) (f : Combatant → Combatant) :
    (b.alter key f).combatant? other =
      if other = key then (b.combatant? other).map f else b.combatant? other :=
  Table.get?_modify b.combatants key other f

@[simp] theorem contains_alter (b : Battle) (key other : String) (f : Combatant → Combatant) :
    (b.alter key f).contains other = b.contains other := by
  simp only [contains, Table.contains, alter, Table.get?_modify]
  split <;> simp

@[simp] theorem names_alter (b : Battle) (key : String) (f : Combatant → Combatant) :
    (b.alter key f).combatants.names = b.combatants.names :=
  Table.names_map _ b.combatants

@[simp] theorem combatant?_remove (b : Battle) (key other : String) :
    (b.remove key).combatant? other = if key = other then none else b.combatant? other :=
  Table.get?_erase b.combatants key other

@[simp] theorem combatant?_record (b : Battle) (e : Event) (key : String) :
    (b.record e).combatant? key = b.combatant? key := rfl

@[simp] theorem log_record (b : Battle) (e : Event) : (b.record e).log = b.log.record e := rfl

/-- A combatant is inserted exactly when its key is free. -/
theorem insert_eq_ok_iff {b c : Battle} {key : String} {x : Combatant} :
    insert key x b = .ok () c ↔
      b.combatant? key = none ∧ c = { b with combatants := b.combatants.insert key x } := by
  unfold insert contains combatant? Table.contains
  cases b.combatants.get? key with
  | none => simp [eq_comm]
  | some y => simp

/-! ## The clock -/

/-- Moves the clock on, wrapping around. -/
def advance (b : Battle) (ms : Int64) : Battle := { b with now := b.now.advance ms }

/-- Sets the clock. -/
def setTime (b : Battle) (ms : Int64) : Battle := { b with now := ⟨ms⟩ }

end Battle

end Skirmish
