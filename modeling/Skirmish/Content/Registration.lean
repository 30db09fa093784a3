import Skirmish.Content.Error

/-!
# Registration

Definitions enter a battle catalogue by catalogue. The formulas of a catalogue are all read before
any of its definitions is registered; combatants enter one by one. What was registered before a
fault stays registered.
-/

namespace Skirmish.Content

open Skirmish.Formula Skirmish.Battle

/-- Changes a battle, or stops at a fault of the content. -/
abbrev Loading := EStateM ContentError Battle

/-- Reads the formulas of all definitions of a catalogue. -/
def compileAll {α β : Type} (catalogue : Catalogue) (key : α → String)
    (compile : α → Except ParseError β) (definitions : List α) : Except ContentError (List β) :=
  definitions.mapM fun d => (compile d).mapError (.invalidFormula catalogue (key d))

/-- Reads the formulas of a catalogue of damage types. -/
def compileDamageTypes (v : Vocabulary) (ds : List DamageTypeDefinition) :
    Except ContentError (List DamageType) :=
  compileAll .damageTypes (·.key) (·.compile v) ds

/-- Reads the formulas of a catalogue of statuses. -/
def compileStatuses (v : Vocabulary) (ds : List StatusDefinition) :
    Except ContentError (List StatusEffect) :=
  compileAll .statuses (·.key) (·.compile v) ds

/-- Reads the formulas of a catalogue of skills. -/
def compileSkills (v : Vocabulary) (ds : List SkillDefinition) :
    Except ContentError (List Skill) :=
  compileAll .skills (·.key) (·.compile v) ds

/-- Registers a catalogue with formulas: `compile` reads them with the vocabulary of the battle, and
`put` registers a definition. -/
def registerFormulas {α β : Type} (compile : Vocabulary → List α → Except ContentError (List β))
    (put : Battle → β → Battle) (definitions : List α) : Loading Unit := do
  let xs ← liftExcept (compile (← get).vocabulary definitions)
  modify fun b => xs.foldl put b

/-- Registers a catalogue of damage types. -/
def registerDamageTypes : List DamageTypeDefinition → Loading Unit :=
  registerFormulas compileDamageTypes Battle.addDamageType

/-- Registers a catalogue of statuses. -/
def registerStatuses : List StatusDefinition → Loading Unit :=
  registerFormulas compileStatuses Battle.addEffect

/-- Registers a catalogue of skills. -/
def registerSkills : List SkillDefinition → Loading Unit :=
  registerFormulas compileSkills Battle.addSkill

/-- Adds a combatant with the default stats, and then sets its own. -/
def enter (d : CombatantDefinition) : Battle.Operation Unit := do
  Battle.add d.key d.name d.side
  modify (·.alter d.key (·.setBaseStats d.stats))

/-- Registers a combatant. -/
def registerCombatant (d : CombatantDefinition) : Loading Unit := fun b =>
  match enter d b with
  | .ok _ b => .ok () b
  | .error e b => .error (.refused d.key e) b

/-- Registers combatants one by one. -/
def registerCombatants : List CombatantDefinition → Loading Unit
  | [] => pure ()
  | d :: ds => do
    registerCombatant d
    registerCombatants ds

end Skirmish.Content
