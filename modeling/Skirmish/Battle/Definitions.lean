import Skirmish.Battle.Status
import Skirmish.Battle.Combatant

/-!
# Damage types, skills and settings

The rest of what designers define.
-/

namespace Skirmish.Battle

open Skirmish.Formula

/-- A damage type as designers write it. -/
structure DamageTypeDefinition where
  key : String
  mitigation : Option String
  dodge : Option String
  critChance : Option String
  critModifier : Option String
  deriving Repr, DecidableEq

/-- A damage type. Without a dodge it always lands, without a chance it is never critical, without
a modifier a critical hit is as hard as any, and without a mitigation all of it lands. -/
structure DamageType where
  key : String
  mitigation : Option Expr
  dodge : Option Expr
  critChance : Option Expr
  critModifier : Option Expr

/-- Reads the formulas of a definition. -/
def DamageTypeDefinition.compile (v : Vocabulary) (d : DamageTypeDefinition) :
    Except ParseError DamageType := do
  let mitigation ← d.mitigation.mapM (Expr.parse v)
  let dodge ← d.dodge.mapM (Expr.parse v)
  let critChance ← d.critChance.mapM (Expr.parse v)
  let critModifier ← d.critModifier.mapM (Expr.parse v)
  return ⟨d.key, mitigation, dodge, critChance, critModifier⟩

namespace DamageTypeDefinition

/-- The formulas of a definition, in the order in which they are read. -/
def formulas (d : DamageTypeDefinition) : List String :=
  d.mitigation.toList ++ (d.dodge.toList ++ (d.critChance.toList ++ d.critModifier.toList))

/-- The damage type is what the definition says, with every formula read. -/
structure Compiled (v : Vocabulary) (d : DamageTypeDefinition) (t : DamageType) : Prop where
  key : t.key = d.key
  mitigation : d.mitigation.map (Expr.parse v) = t.mitigation.map .ok
  dodge : d.dodge.map (Expr.parse v) = t.dodge.map .ok
  critChance : d.critChance.map (Expr.parse v) = t.critChance.map .ok
  critModifier : d.critModifier.map (Expr.parse v) = t.critModifier.map .ok

/-- The definition is compiled if all its formulas can be read, and else the first fault is its. -/
theorem compile_inOrder (v : Vocabulary) (d : DamageTypeDefinition) :
    v.ReadsInOrder d.formulas (d.Compiled v) (d.compile v) :=
  (v.readsInOrder_option d.mitigation).bind fun _ mitigation =>
    (v.readsInOrder_option d.dodge).bind fun _ dodge =>
      (v.readsInOrder_option d.critChance).bind fun _ critChance =>
        (v.readsInOrder_option d.critModifier).map fun _ critModifier =>
          ⟨rfl, mitigation, dodge, critChance, critModifier⟩

theorem exists_compile_eq_ok_iff (v : Vocabulary) (d : DamageTypeDefinition) :
    (∃ t, d.compile v = .ok t) ↔ ∀ text ∈ d.formulas, v.CanRead text :=
  (d.compile_inOrder v).exists_ok_iff

end DamageTypeDefinition

/-- A skill as designers write it. -/
structure SkillDefinition where
  key : String
  formula : String
  deriving Repr, DecidableEq

/-- A skill. -/
structure Skill where
  key : String
  formula : Expr

/-- Reads the formula of a definition. -/
def SkillDefinition.compile (v : Vocabulary) (d : SkillDefinition) : Except ParseError Skill := do
  return ⟨d.key, ← Expr.parse v d.formula⟩

namespace SkillDefinition

/-- The formulas of a definition: it has one. -/
def formulas (d : SkillDefinition) : List String := [d.formula]

/-- The skill is what the definition says, with its formula read. -/
structure Compiled (v : Vocabulary) (d : SkillDefinition) (s : Skill) : Prop where
  key : s.key = d.key
  formula : Expr.parse v d.formula = .ok s.formula

/-- The definition is compiled if its formula can be read, and else the fault is its. -/
theorem compile_inOrder (v : Vocabulary) (d : SkillDefinition) :
    v.ReadsInOrder d.formulas (d.Compiled v) (d.compile v) :=
  (v.readsInOrder_parse d.formula).map fun _ formula => ⟨rfl, formula⟩

theorem exists_compile_eq_ok_iff (v : Vocabulary) (d : SkillDefinition) :
    (∃ s, d.compile v = .ok s) ↔ ∀ text ∈ d.formulas, v.CanRead text :=
  (d.compile_inOrder v).exists_ok_iff

end SkillDefinition

/-- A combatant as designers write it. The stats override the default ones. -/
structure CombatantDefinition where
  key : String
  name : String
  side : Side
  stats : Stats
  deriving DecidableEq

/-- What a battle is set up with. -/
structure Settings where
  /-- the base stats of every new combatant -/
  defaultStats : Stats
  /-- the stat that damage lowers and healing raises -/
  hpStat : String
  /-- how deep formulas may act on the battle from within each other -/
  reentryLimit : Nat
  /-- the seed of the dice -/
  seed : UInt64

/-- The settings that hold unless others are given. -/
def Settings.standard : Settings where
  defaultStats := Table.ofList
    [("CHP", 100), ("MHP", 100), ("STR", 5), ("INT", 5), ("AGI", 10), ("DEF", 10), ("MDEF", 0)]
  hpStat := "CHP"
  reentryLimit := 16
  seed := 0x5eed

instance : Inhabited Settings := ⟨.standard⟩

end Skirmish.Battle
