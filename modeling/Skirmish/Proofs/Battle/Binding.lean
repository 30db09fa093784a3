import Skirmish.Battle.Operations
import Skirmish.Proofs.Formula.Environment

/-!
# Bound formulas in a battle

The formulas of skills, dodges, criticals and mitigation are bound for each use and then evaluated.
`resolve_bound`: this comes to the same as evaluating them as they were written, with placeholders
and bare stats read for what they mean when the evaluation reaches them.
-/

namespace Skirmish.Battle

open Skirmish.Formula

theorem faultsAbsent_worldWith (resolver : Resolver) : (worldWith resolver).FaultsAbsent := by
  intro b entity stat h
  have hnone : b.combatant? entity = none :=
    Option.not_isSome_iff_eq_none.1 (Bool.not_eq_true _ ▸ h)
  show b.statOrFault entity stat = _
  unfold statOrFault
  rw [hnone]

theorem faultsAbsent_world (n : Nat) : (world n).FaultsAbsent := by
  cases n with
  | zero => exact faultsAbsent_worldWith refuse
  | succ n => exact faultsAbsent_worldWith fun e => e.resolve (world n)

/-- **Binding.** Let the keys of source and target be neither `$VALUE` nor names of stats that are
bound. A formula whose height is below the limit has, once it is bound, the value or fault that it
has in the environment of its use, and leaves the same battle. A bare stat is one that its entity
had when the formula was bound; it is read when it is reached. -/
theorem resolve_bound (b : Battle) (standard : b.vocabulary = .standard) (n : Nat) (e : Expr)
    (height : e.height ≤ 255) :
    (∀ source target, b.hasStat source source = false → b.hasStat source target = false →
      resolveSkill (fun e => e.resolve (world n)) e source target b =
        e.resolveIn (world n) (.skill b.hasStat source target) b) ∧
    ∀ target source amount, b.hasStat target source = false → b.hasStat target target = false →
      source ≠ amountPlaceholder → target ≠ amountPlaceholder →
      resolveMitigation (fun e => e.resolve (world n)) e target source amount b =
        e.resolveIn (world n) (.mitigation b.hasStat target source amount) b := by
  have hlimit : e.height < Evaluation.limit := Nat.lt_succ_of_le height
  have absent := faultsAbsent_world n
  constructor
  · intro source target hs ht
    unfold resolveSkill
    rw [standard]
    exact congrFun (Expr.resolve_bindSkill absent hs ht hlimit) b
  · intro target source amount hs ht hsource htarget
    unfold resolveMitigation
    rw [standard]
    exact congrFun (Expr.resolve_bindMitigation absent hs ht hsource htarget hlimit) b

/-- `ARRAY(CHP,HEAL($TARGET,$CASTER,1),CHP)` reads the hit points of a caster who heals itself, and
`ARRAY($VALUE,DEF)` mitigates. -/
theorem resolve_bound_heal :
    let array : Function := ⟨"ARRAY", .atLeast 0, .array, [], []⟩
    let heal : Function := ⟨"HEAL", .exactly 3, .heal, [], []⟩
    let reading : Expr := .call array [.leaf (.key "CHP"),
      .call heal [.leaf (.key "$TARGET"), .leaf (.key "$CASTER"), .leaf (.number 1)],
      .leaf (.key "CHP")]
    let share : Expr := .call array [.leaf (.key "$VALUE"), .leaf (.key "DEF")]
    let b : Battle := after (add "h" "H" .player) (new .standard)
    b.hasStat "h" "CHP" = true ∧ b.hasStat "h" "h" = false ∧
      resolveSkill b.here reading "h" "h" b =
        reading.resolveIn (world b.levels) (.skill b.hasStat "h" "h") b ∧
      resolveMitigation b.here share "h" "h" 7 b =
        share.resolveIn (world b.levels) (.mitigation b.hasStat "h" "h" 7) b := by
  intro array heal reading share b
  have bare : b.hasStat "h" "h" = false := by decide +kernel
  exact ⟨by decide +kernel, bare,
    (resolve_bound b rfl b.levels reading (by decide)).1 "h" "h" bare bare,
    (resolve_bound b rfl b.levels share (by decide)).2 "h" "h" 7 bare bare (by decide) (by decide)⟩

end Skirmish.Battle
