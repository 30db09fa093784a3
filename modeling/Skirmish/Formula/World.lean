import Skirmish.Formula.Error
import Skirmish.Generator

/-!
# Worlds

What a formula can see and do outside itself. A world over states `σ` answers questions about the
entities in a state and changes the state on demand; an action that fails leaves the changes made
so far.
-/

namespace Skirmish.Formula

/-- An action on a state that may fail. The state survives a failure. -/
abbrev Action (σ : Type) := EStateM EvalError σ

/-- Everything that formulas may ask of a state and do to it. -/
structure World (σ : Type) where
  /-- Whether there is an entity of that name. -/
  entityExists : σ → String → Bool
  /-- All players. -/
  players : σ → List String
  /-- The players who can still act. -/
  activePlayers : σ → List String
  /-- The current stat of an entity. -/
  stat : σ → (entity stat : String) → Except EvalError Float
  /-- Deals damage of a type. -/
  harm : (target source type : String) → (amount : Float) → Action σ Unit
  /-- Heals. -/
  heal : (target source : String) → (amount : Float) → Action σ Unit
  /-- Casts a skill. -/
  cast : (caster target skill : String) → Action σ Unit
  /-- Applies a status for a time, with arguments. -/
  inflict : (target source status : String) → (duration : Float) → List Float → Action σ Unit
  /-- Rolls a number below a bound. -/
  roll : (upper : UInt32) → σ → UInt32 × σ

namespace World

/-- The fault of naming an entity where there is none. -/
def noEntity {σ α : Type} (name : String) : Action σ α := throw (.unknownEntity name)

/-- A world without entities, in which only dice can be rolled. -/
def deserted : World Generator where
  entityExists _ _ := false
  players _ := []
  activePlayers _ := []
  stat _ entity _ := .error (.unknownEntity entity)
  harm target _ _ _ := noEntity target
  heal target _ _ := noEntity target
  cast caster _ _ := noEntity caster
  inflict target _ _ _ _ := noEntity target
  roll := Generator.below

end World

end Skirmish.Formula
