import Skirmish.Battle.Basic
import Skirmish.Formula.Binding
import Skirmish.Formula.Eval

/-!
# What formulas do to a battle

Damage, healing, skills and statuses, and the world in which formulas are evaluated. A formula may
deal damage whose mitigation is again a formula, and so on; each such step goes one level deeper
(`Battle.deeper`) and is refused at the limit of the settings.

The levels left are what the recursion runs on: `Battle.world n` is the world in which formulas can
go `n` levels deeper. It is built from the world with one level less, and with no level left every
step deeper is refused anyway. So evaluation ends whatever the definitions say, and in whatever
circle they refer to each other.
-/

namespace Skirmish.Battle

open Skirmish.Formula

/-- A way to evaluate formulas that were bound. -/
abbrev Resolver := Expr → Action Battle Value

/-- A pure computation, as an action. -/
def lift {α : Type} (x : Except EvalError α) : Action Battle α :=
  match x with
  | .ok a => pure a
  | .error e => throw e

/-- Runs an action one level deeper, or refuses at the limit. -/
def deeper {α : Type} (act : Action Battle α) : Action Battle α := fun b =>
  if b.settings.reentryLimit ≤ b.depth then .error (.recursionLimit b.settings.reentryLimit) b
  else
    match act { b with depth := b.depth + 1 } with
    | .ok a c => .ok a { c with depth := c.depth - 1 }
    | .error e c => .error e { c with depth := c.depth - 1 }

/-- Rolls below `upper`. -/
def roll (upper : UInt32) (b : Battle) : UInt32 × Battle :=
  let (n, dice) := b.dice.below upper
  (n, { b with dice })

/-- Rolls against a percentage. -/
def rollChance (percent : Float) : Action Battle Bool := fun b =>
  let (n, b) := b.roll 1000
  .ok (rollSucceeds n percent) b

/-! ## Bound formulas -/

section

variable (resolver : Resolver)

/-- Evaluates a formula in which bare stats are the caster's. -/
def resolveSkill (e : Expr) (source target : String) : Action Battle Value := fun b =>
  resolver (e.bindSkill b.vocabulary b.hasStat source target) b

/-- Evaluates a formula in which bare stats are the defender's. -/
def resolveMitigation (e : Expr) (target source : String) (amount : Float) :
    Action Battle Value := fun b =>
  resolver (e.bindMitigation b.vocabulary b.hasStat target source amount) b

/-- Evaluates a formula of a status. -/
def resolveStatus (e : Expr) (source target : String) (values : List Float) :
    Action Battle Value := do
  resolver (← lift (e.bindStatus source target values))

/-! ## Damage -/

/-- Whether the target dodges. Nobody dodges a source that is gone. -/
def isDodged (d : DamageType) (source target : String) : Action Battle Bool := do
  match d.dodge with
  | none => return false
  | some e =>
    if (← get).contains source then
      rollChance (← lift (← resolveSkill resolver e source target).asNumber)
    else return false

/-- Whether a hit is critical. A source that is gone lands no critical hit. -/
def isCritical (d : DamageType) (source target : String) : Action Battle Bool := do
  match d.critChance with
  | none => return false
  | some e =>
    if (← get).contains source then
      rollChance (← lift (← resolveSkill resolver e source target).asNumber)
    else return false

/-- What a hit is multiplied by. -/
def multiplier (d : DamageType) (critical : Bool) (source target : String) :
    Action Battle Float := do
  match d.critModifier with
  | none => return 1
  | some e =>
    if critical then lift (← resolveSkill resolver e source target).asNumber else return 1

/-- What becomes of raw damage: first a critical hit, then the mitigation. -/
def outcome (d : DamageType) (raw : Float) (source target : String) : Action Battle Outcome := do
  let critical ← isCritical resolver d source target
  let amount := raw * (← multiplier resolver d critical source target)
  let amount ← match d.mitigation with
    | none => pure amount
    | some e => lift (← resolveMitigation resolver e target source amount).asNumber
  return ⟨amount, raw - amount, critical⟩

/-- Takes hit points from a target that is still there and says so in the log. -/
def land (d : DamageType) (target source : String) (logged : Bool) (o : Outcome) :
    Action Battle (Option Outcome) := fun b =>
  if b.contains target then
    let b := b.alter target (·.adjustPersistent b.settings.hpStat (-o.amount))
    .ok (some o) (if logged then b.record (.damage target source d.key o) else b)
  else .ok none b

/-- Deals damage. Nothing comes of it when the target dodges or is not there. -/
def damage (target : String) (amount : Float) (type source : String) (logged : Bool) :
    Action Battle (Option Outcome) := do
  match (← get).damageTypes.get? type with
  | none => throw (.unknownDamageType type)
  | some d =>
    if !(← get).contains target then return none
    else deeper do
      if ← isDodged resolver d source target then
        if logged then modify fun b => b.record (.dodge target source d.key)
        return none
      else
        land d target source logged (← outcome resolver d amount source target)

/-- Heals a target, if it is there. -/
def restore (b : Battle) (target : String) (amount : Float) (source : String) (logged : Bool) :
    Battle :=
  if b.contains target then
    let b := b.alter target (·.adjustPersistent b.settings.hpStat amount)
    if logged then b.record (.heal target source amount) else b
  else b

/-! ## Skills -/

/-- Evaluates the formula of a skill. -/
def useSkill (caster target skill : String) : Action Battle Value := do
  match (← get).skills.get? skill with
  | none => throw (.unknownSkill skill)
  | some s => deeper (resolveSkill resolver s.formula caster target)

/-! ## Statuses -/

/-- The limit that a number stands for: its whole part, and zero, which is no limit, for what is
negative or no number. -/
def stackLimit (x : Float) : Nat := x.toUInt64.toNat

/-- Adds an instance of a status. Its interval is evaluated first. -/
def addStatus (e : StatusEffect) (target source : String) (duration : Float)
    (values : List Float) : Action Battle Unit := do
  let value ← deeper (resolveStatus resolver e.interval source target values)
  let seconds ← lift value.asNumber
  let b ← get
  let status : ActiveStatus :=
    { id := b.nextStatusId, effect := e, source, lastTick := none,
      removal := removalTime b.now duration, interval := wholeMillis (seconds * 1000), values }
  set { b with nextStatusId := b.nextStatusId + 1 }
  if b.contains target then
    modify (·.alter target fun c => { c with statuses := c.statuses ++ [status] })
  else throw (.unknownEntity target)

/-- Whether an independent status may be added to `count` instances. Without a formula there is no
limit. -/
def mayStack (e : StatusEffect) (target source : String) (values : List Float) (count : Nat) :
    Action Battle Bool := do
  match e.maxStacks with
  | none => return true
  | some limit =>
    let value ← deeper (resolveStatus resolver limit source target values)
    let limit := stackLimit (← lift value.asNumber)
    return limit = 0 || count < limit

/-- The first status of that name, with a new end. -/
def refreshFirst (key : String) (removal : Option Timestamp) :
    List ActiveStatus → List ActiveStatus
  | [] => []
  | s :: rest =>
    if s.key = key then { s with removal } :: rest else s :: refreshFirst key removal rest

/-- Applies a status, and tells whether an instance was added or refreshed. -/
def inflict (target status source : String) (duration : Float) (values : List Float) :
    Action Battle Bool := do
  let b ← get
  match b.effects.get? status with
  | none => throw (.unknownStatus status)
  | some e =>
    match b.combatant? target with
    | none => throw (.unknownEntity target)
    | some c =>
      match e.stacking with
      | .refresh =>
        if c.hasStatus status then
          let removal := removalTime b.now duration
          modify (·.alter target fun c =>
            { c with statuses := refreshFirst status removal c.statuses })
          return true
        else
          addStatus resolver e target source duration values
          return true
      | .none =>
        if c.hasStatus status then return false
        else
          addStatus resolver e target source duration values
          return true
      | .independent =>
        if ← mayStack resolver e target source values (c.statusCount status) then
          addStatus resolver e target source duration values
          return true
        else return false

/-! ## The world of formulas -/

/-- A battle as formulas see it, where `resolver` evaluates the formulas that they set off. -/
def worldWith : World Battle where
  entityExists := contains
  players := players
  activePlayers := activePlayers
  stat := statOrFault
  harm target source type amount := discard (damage resolver target amount type source true)
  heal target source amount := modify (·.restore target amount source true)
  cast caster target skill := discard (useSkill resolver caster target skill)
  inflict target source status duration values :=
    discard (inflict resolver target status source duration values)
  roll := roll

end

/-- Refuses to evaluate anything. -/
def refuse : Resolver := fun _ b => .error (.recursionLimit b.settings.reentryLimit) b

/-- The world of formulas that can go `n` levels deeper. -/
def world : Nat → World Battle
  | 0 => worldWith refuse
  | n + 1 => worldWith fun e => e.resolve (world n)

/-- The levels that are left. -/
def levels (b : Battle) : Nat := b.settings.reentryLimit - b.depth

/-- Evaluates formulas at the present level. -/
def here (b : Battle) : Resolver := fun e => e.resolve (world b.levels)

/-- Evaluates formulas one level deeper. -/
def below (b : Battle) : Resolver := fun e => e.resolve (world (b.levels - 1))

end Skirmish.Battle
