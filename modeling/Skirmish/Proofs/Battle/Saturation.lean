import Skirmish.Proofs.Battle.Instances
import Skirmish.Proofs.Battle.Limit
import Skirmish.Proofs.Formula.Saturation

/-!
# Saturated battles

A battle is saturated if all its formulas are: those that are registered, and those of the statuses
that lie on someone.

1. `Evolves.saturated`, `Proceeds.saturated`: it stays so whatever formulas and ticks do.
2. `saturated_run`: a battle whose definitions were all read is saturated.
-/

namespace Skirmish.Battle

open Skirmish.Formula

/-! ## The formulas of a battle -/

section Definitions

variable (v : Vocabulary)

/-- All formulas of a damage type are saturated. -/
def DamageType.Saturated (t : DamageType) : Prop :=
  ∀ formula ∈ [t.mitigation, t.dodge, t.critChance, t.critModifier],
    ∀ e ∈ formula, e.Saturated v

/-- All formulas of a status effect are saturated. -/
structure StatusEffect.Saturated (e : StatusEffect) : Prop where
  interval : e.interval.Saturated v
  maxStacks : ∀ limit ∈ e.maxStacks, limit.Saturated v
  components : ∀ component ∈ e.components, component.Saturated v

/-- All formulas of a battle are saturated, and bindings are made with the vocabulary. -/
structure Saturated (b : Battle) : Prop where
  vocabulary : b.vocabulary = v
  damageTypes : ∀ key t, b.damageTypes.get? key = some t → t.Saturated v
  effects : ∀ key e, b.effects.get? key = some e → e.Saturated v
  skills : ∀ key s, b.skills.get? key = some s → s.formula.Saturated v
  carried : ∀ key, ∀ s ∈ b.statusesOf key, s.effect.Saturated v

end Definitions

section Closure

variable {v : Vocabulary} {b c : Battle}

/-- The same rules, and no other formulas on anyone. -/
theorem Saturated.of_rules (hb : b.Saturated v) (hrules : c.rules = b.rules)
    (hcarried : ∀ key, ∀ s ∈ c.statusesOf key, s.effect.Saturated v) : c.Saturated v := by
  have hvocabulary : c.vocabulary = b.vocabulary := congrArg Rules.vocabulary hrules
  have hdamageTypes : c.damageTypes = b.damageTypes := congrArg Rules.damageTypes hrules
  have heffects : c.effects = b.effects := congrArg Rules.effects hrules
  have hskills : c.skills = b.skills := congrArg Rules.skills hrules
  exact
    { vocabulary := hvocabulary.trans hb.vocabulary
      damageTypes := hdamageTypes ▸ hb.damageTypes
      effects := heffects ▸ hb.effects
      skills := hskills ▸ hb.skills
      carried := hcarried }

/-- A change of one combatant that puts no other formulas on it. -/
theorem Saturated.alter (hb : b.Saturated v) {key : String} {f : Combatant → Combatant}
    (hf : ∀ x, (∀ s ∈ x.statuses, s.effect.Saturated v) →
      ∀ s ∈ (f x).statuses, s.effect.Saturated v) : (b.alter key f).Saturated v := by
  refine hb.of_rules rfl fun other s hs => ?_
  obtain ⟨y, hy, hs⟩ := mem_statusesOf.1 hs
  rw [combatant?_alter] at hy
  split at hy
  · obtain ⟨x, hx, rfl⟩ := Option.map_eq_some_iff.1 hy
    exact hf x (fun t ht => hb.carried other t (mem_statusesOf.2 ⟨x, hx, ht⟩)) s hs
  · exact hb.carried other s (mem_statusesOf.2 ⟨y, hy, hs⟩)

theorem Saturated.adjustPersistent (hb : b.Saturated v) (key stat : String) (delta : Float) :
    (b.alter key (·.adjustPersistent stat delta)).Saturated v :=
  hb.alter fun _ h => h

theorem Saturated.record (hb : b.Saturated v) (e : Event) : (b.record e).Saturated v :=
  { hb with }

theorem Saturated.roll (hb : b.Saturated v) (upper : UInt32) : (b.roll upper).2.Saturated v :=
  { hb with }

theorem Saturated.restore (hb : b.Saturated v) (target : String) (amount : Float) (source : String)
    (logged : Bool) : (b.restore target amount source logged).Saturated v := by
  have hit := hb.adjustPersistent target b.settings.hpStat amount
  unfold Battle.restore
  split
  · cases logged with
    | true => exact hit.record _
    | false => exact hit
  · exact hb

theorem saturated_refreshFirst {key : String} {removal : Option Timestamp} {l : List ActiveStatus}
    (h : ∀ s ∈ l, s.effect.Saturated v) :
    ∀ s ∈ refreshFirst key removal l, s.effect.Saturated v := by
  induction l with
  | nil => exact nofun
  | cons t rest ih =>
    obtain ⟨ht, hrest⟩ := List.forall_mem_cons.1 h
    rw [refreshFirst]
    split
    · exact List.forall_mem_cons.2 ⟨ht, hrest⟩
    · exact List.forall_mem_cons.2 ⟨ht, ih hrest⟩

theorem Saturated.append (hb : b.Saturated v) {target : String} {s : ActiveStatus}
    (hs : s.effect.Saturated v) :
    (b.alter target fun c => { c with statuses := c.statuses ++ [s] }).Saturated v :=
  hb.alter fun _ h => List.forall_mem_append.2 ⟨h, List.forall_mem_singleton.2 hs⟩

theorem Saturated.sweep (hb : b.Saturated v) (key : String) (now : Timestamp) :
    (b.alter key (sweep now)).Saturated v :=
  hb.alter fun _ h s hs => h s (List.mem_filter.1 hs).1

theorem Saturated.stamp (hb : b.Saturated v) (key : String) (now : Timestamp) (ids : List Nat) :
    (b.alter key (stamp now ids)).Saturated v := by
  refine hb.alter fun x h s hs => ?_
  obtain ⟨t, ht, rfl⟩ := List.mem_map.1 hs
  split <;> exact h t ht

end Closure

/-! ## Courses -/

section Courses

variable {v : Vocabulary} {silent : Bool} {b c : Battle}

theorem Evolves.saturated (h : Evolves silent b c) (hb : b.Saturated v) : c.Saturated v := by
  induction h with
  | refl => exact hb
  | trans _ _ ih ih' => exact ih' (ih hb)
  | roll b upper => exact hb.roll upper
  | @event b e logged there told =>
    refine hb.of_rules (frame_undergo b e logged).rules_eq fun key s hs => ?_
    rw [statusesOf_undergo] at hs
    exact hb.carried key s hs
  | nested _ _ ih => exact { ih { hb with } with }
  | refresh => exact hb.alter fun _ => saturated_refreshFirst
  | @inflict b c target _ _ _ _ _ _ _ known _ _ _ ih =>
    have hc : { c with nextStatusId := c.nextStatusId + 1 }.Saturated v := { ih hb with }
    exact hc.append (hb.effects _ _ known)

theorem Proceeds.saturated (h : Proceeds silent b c) (hb : b.Saturated v) : c.Saturated v := by
  induction h with
  | trans _ _ ih ih' => exact ih' (ih hb)
  | evolve h => exact h.saturated hb
  | sweep b key => exact hb.sweep key b.now
  | modify => exact hb.alter fun _ h => h
  | stamp b key now ids => exact hb.stamp key now ids
  | cleanse => exact hb.alter fun _ _ => nofun
  | clock => exact { hb with }

end Courses

/-! ## Definitions that were read -/

section Reading

variable {v : Vocabulary} (hv : v.Sound)

include hv

theorem DamageTypeDefinition.saturated_of_compile {d : DamageTypeDefinition} {t : DamageType}
    (h : d.compile v = .ok t) : t.Saturated v :=
  DamageTypeDefinition.forall_of_compile (saturated_of_parse hv) h

theorem SkillDefinition.saturated_of_compile {d : SkillDefinition} {s : Skill}
    (h : d.compile v = .ok s) : s.formula.Saturated v :=
  SkillDefinition.forall_of_compile (saturated_of_parse hv) h

theorem StatusDefinition.saturated_of_compile {d : StatusDefinition} {e : StatusEffect}
    (h : d.compile v = .ok e) : e.Saturated v := by
  obtain ⟨interval, maxStacks, components⟩ :=
    StatusDefinition.forall_of_compile (saturated_of_parse hv) h
  exact { interval, maxStacks, components }

end Reading

/-- The formulas that a move brings along were read with the vocabulary, and bound or not. -/
def Move.Sourced (v : Vocabulary) : Move → Prop
  | resolve e => ∃ text x bindings, Expr.parse v text = .ok x ∧ x.bindAll v bindings = .ok e
  | tryDodge t _ _ | tryMitigation t _ _ _ => ∃ d : DamageTypeDefinition, d.compile v = .ok t
  | _ => True

/-- What is registered, and what those who enter carry, was read with the vocabulary. -/
def Command.Sourced (v : Vocabulary) : Command → Prop
  | insert _ x => ∀ s ∈ x.statuses, ∃ d : StatusDefinition, d.compile v = .ok s.effect
  | command => command.Compiled v

section Runs

variable {v : Vocabulary} {b : Battle}

theorem Saturated.after_insert (hb : b.Saturated v) {key : String} {x : Combatant}
    (hx : ∀ s ∈ x.statuses, s.effect.Saturated v) :
    (after (Battle.insert key x) b).Saturated v := by
  rw [Battle.after_insert]
  split
  · exact hb
  · refine hb.of_rules rfl fun other s hs => ?_
    obtain ⟨y, hy, hs⟩ := mem_statusesOf.1 hs
    rw [combatant?_inserted] at hy
    split at hy
    · cases hy
      exact hx s hs
    · exact hb.carried other s (mem_statusesOf.2 ⟨y, hy, hs⟩)

theorem Saturated.remove (hb : b.Saturated v) (key : String) : (b.remove key).Saturated v := by
  refine hb.of_rules rfl fun other s hs => ?_
  obtain ⟨y, hy, hs⟩ := mem_statusesOf.1 hs
  rw [combatant?_remove] at hy
  split at hy
  · cases hy
  · exact hb.carried other s (mem_statusesOf.2 ⟨y, hy, hs⟩)

theorem saturated_perform (hv : v.Sound) (hb : b.Saturated v) {command : Command}
    (h : command.Sourced v) : (command.perform b).Saturated v := by
  cases command with
  | move m =>
    have hm : Proceeds true b (m.perform b) := proceeds_perform m (.inr rfl)
    exact hm.saturated hb
  | addDamageType t =>
    obtain ⟨d, hd⟩ := h
    have ht : t.Saturated v := DamageTypeDefinition.saturated_of_compile hv hd
    exact { hb with damageTypes := forall_get?_insert ht hb.damageTypes }
  | addEffect e =>
    obtain ⟨d, hd⟩ := h
    have he : e.Saturated v := StatusDefinition.saturated_of_compile hv hd
    exact { hb with effects := forall_get?_insert he hb.effects }
  | addSkill s =>
    obtain ⟨d, hd⟩ := h
    have hs : s.formula.Saturated v := SkillDefinition.saturated_of_compile hv hd
    exact { hb with
      skills := forall_get?_insert (P := fun s : Skill => s.formula.Saturated v) hs hb.skills }
  | insert key x =>
    refine hb.after_insert fun s hs => ?_
    obtain ⟨d, hd⟩ := h s hs
    exact StatusDefinition.saturated_of_compile hv hd
  | add key name side => exact hb.after_insert nofun
  | remove key => exact hb.remove key

theorem saturated_run (hv : v.Sound) (hb : b.Saturated v) {commands : List Command}
    (h : ∀ command ∈ commands, command.Sourced v) : (run b commands).Saturated v := by
  induction commands generalizing b with
  | nil => exact hb
  | cons command rest ih =>
    obtain ⟨hcommand, hrest⟩ := List.forall_mem_cons.1 h
    rw [run_cons]
    exact ih (saturated_perform hv hb hcommand) hrest

theorem saturated_new (settings : Settings) (v : Vocabulary) (now : Timestamp) (log : Log) :
    (new settings v now log).Saturated v where
  vocabulary := rfl
  damageTypes _ _ h := by cases h
  effects _ _ h := by cases h
  skills _ _ h := by cases h
  carried _ _ h := by cases h

end Runs

end Skirmish.Battle
