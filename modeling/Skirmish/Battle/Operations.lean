import Skirmish.Battle.Tick

/-!
# Operations

What can be done to a battle from outside. An operation on a combatant that is not there is
refused at once.
-/

namespace Skirmish.Battle

open Skirmish.Formula

/-- Refuses when there is no combatant with that key. -/
def require (key : String) : Operation Unit := fun b =>
  if b.contains key then .ok () b else .error (.unknownEntity key) b

/-- An action as an operation. -/
def act {α : Type} (action : Action Battle α) : Operation α := fun b =>
  match action b with
  | .ok a b => .ok a b
  | .error e b => .error (.eval e) b

/-- Deals damage. Without an outcome the damage was dodged. -/
def dealDamage (target : String) (amount : Float) (type source : String) (logged : Bool) :
    Operation (Option Outcome) := do
  require target
  act (damage (← get).below target amount type source logged)

/-- Heals, without an upper limit. -/
def heal (target : String) (amount : Float) (source : String) (logged : Bool) :
    Operation Unit := do
  require target
  modify (·.restore target amount source logged)

/-- Casts a skill; the value is that of its formula. -/
def castSkill (caster target skill : String) : Operation Value := do
  require caster
  require target
  act (useSkill (← get).below caster target skill)

/-- Applies a status, and tells whether an instance was added or refreshed. -/
def applyStatus (target status source : String) (duration : Float) (values : List Float) :
    Operation Bool := do
  require target
  act (inflict (← get).below target status source duration values)

/-- One tick of every combatant. Faults do not stop it; the first is reported. -/
def update : Operation Unit := do
  finish (tickAll (← get).below)

/-- One tick of one combatant. -/
def updateOne (key : String) : Operation Unit := do
  require key
  finish (tick (← get).below key)

/-- Takes all statuses off a combatant and starts its derived stats again. -/
def cleanse (key : String) : Operation Unit := do
  require key
  modify (·.alter key fun c => { c with statuses := [] }.resetDerived)

/-- The value of an expression over the stats of one combatant. -/
def compoundStat (key text : String) : Operation Float := do
  require key
  let b ← get
  match Expr.parse b.vocabulary text with
  | .error e => throw (.invalidFormula text e)
  | .ok e =>
    act do lift (← b.here (e.bindCompound b.vocabulary b.hasStat key)).asNumber

/-- Reads a formula and evaluates it. -/
def evaluate (text : String) : EStateM FormulaError Battle Value := fun b =>
  Formula.evaluate b.vocabulary (world b.levels) text b

/-- Whether a target would dodge damage of a type. -/
def tryDodge (d : DamageType) (source target : String) : Action Battle Bool := fun b =>
  isDodged b.here d source target b

/-- What would become of raw damage of a type. -/
def tryMitigation (d : DamageType) (raw : Float) (source target : String) :
    Action Battle Outcome := fun b =>
  outcome b.here d raw source target b

/-- The sizes of a battle in one line. -/
def summary (b : Battle) : String :=
  "GameEngine \x7b " ++
  s!"entities: {b.combatants.size}, damage_types: {b.damageTypes.size}, " ++
  s!"statuses: {b.effects.size}, skills: {b.skills.size}, depth: {b.depth}, .. \x7d"

end Skirmish.Battle
