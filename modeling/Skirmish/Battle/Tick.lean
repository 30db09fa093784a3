import Skirmish.Battle.Effect

/-!
# Ticks

A tick of a combatant drops the statuses whose end has passed, starts the derived stats again from
the base stats, lets the due statuses change stats, then lets them harm and heal, and at last
stamps them with the time. A component that fails is given up, and only it; its fault is
remembered.
-/

namespace Skirmish.Battle

open Skirmish.Formula

/-- A change of a battle that remembers faults instead of stopping at them. -/
abbrev Pass := StateM Battle (List EvalError)

/-- Runs an action and keeps its fault, if there is one. -/
def attempt (act : Action Battle Unit) : Pass := fun b =>
  match act b with
  | .ok _ b => ([], b)
  | .error e b => ([e], b)

/-- Runs a pass for each element and collects the faults in order. -/
def forEach {α : Type} (xs : List α) (pass : α → Pass) : Pass :=
  match xs with
  | [] => pure []
  | x :: rest => do
    let faults ← pass x
    return faults ++ (← forEach rest pass)

/-- Evaluates a component of a status on `target`. -/
def evalComponent (resolver : Resolver) (target : String) (s : ActiveStatus) (component : Expr) :
    Action Battle Value :=
  deeper (resolveStatus resolver component s.source target s.values)

/-- Lets one component change a stat. -/
def applyModifier (resolver : Resolver) (target : String) (s : ActiveStatus) (component : Expr) :
    Action Battle Unit := do
  let (stat, amount) ← lift (← evalComponent resolver target s component).asModifier
  modify (·.alter target (·.adjustDerived stat amount))

/-- Lets one component harm or heal. -/
def applyEffect (resolver : Resolver) (target : String) (s : ActiveStatus) (component : Expr) :
    Action Battle Unit :=
  discard (evalComponent resolver target s component)

/-- Whether a component changes a stat. -/
def isModifier (e : Expr) : Bool := e.isCallTo Vocabulary.modifierName

/-- Whether a component harms or heals. -/
def isEffect (e : Expr) : Bool := e.isCallTo Vocabulary.harmName || e.isCallTo Vocabulary.healName

/-- Lets the due statuses change stats. -/
def modifiersPass (resolver : Resolver) (target : String) (due : List ActiveStatus) : Pass :=
  forEach due fun s =>
    forEach (s.effect.components.filter isModifier) fun e =>
      attempt (applyModifier resolver target s e)

/-- Lets the due statuses harm and heal. -/
def effectsPass (resolver : Resolver) (target : String) (due : List ActiveStatus) : Pass :=
  forEach due fun s =>
    forEach (s.effect.components.filter isEffect) fun e =>
      attempt (applyEffect resolver target s e)

/-- Drops expired statuses and starts the derived stats again. -/
def sweep (now : Timestamp) (c : Combatant) : Combatant :=
  { c with statuses := c.statuses.filter (!·.isExpired now) }.resetDerived

/-- Stamps the statuses with these ids. -/
def stamp (now : Timestamp) (ids : List Nat) (c : Combatant) : Combatant :=
  { c with
    statuses := c.statuses.map fun s =>
      if s.id ∈ ids then { s with lastTick := some now } else s }

/-- One tick of a combatant. -/
def tick (resolver : Resolver) (key : String) : Pass := fun b =>
  match b.combatant? key with
  | none => ([], b)
  | some c =>
    let now := b.now
    let due := (sweep now c).statuses.filter (·.isDue now)
    let (first, b) := modifiersPass resolver key due (b.alter key (sweep now))
    let (second, b) := effectsPass resolver key due b
    (first ++ second, b.alter key (stamp now (due.map (·.id))))

/-- One tick of every combatant, in order. -/
def tickAll (resolver : Resolver) : Pass := fun b =>
  forEach b.combatants.names (tick resolver) b

/-- Runs a pass; its first fault is the fault of the operation. -/
def finish (pass : Pass) : Operation Unit := fun b =>
  let (faults, b) := pass b
  match faults with
  | [] => .ok () b
  | e :: _ => .error (.eval e) b

end Skirmish.Battle
