import Skirmish.Proofs.Battle.Coupling
import Skirmish.Proofs.Battle.Course

/-!
# Raising the limit

The limit of re-entry is looked at where formulas go one level deeper, and nowhere else. A formula
that is refused there makes all the formulas around it fail, since no standard function goes on
after a fault.

1. `formulasOver_run`: where what is registered was read with a vocabulary, the formulas of a battle
   are over the functions of the vocabulary.
2. `statusCoupling_raised`: a battle over functions that do not go on after a fault is coupled with
   the same battle at a higher limit.
3. `limit_raised`: so damage, skills and statuses that are not refused at a limit do the same at
   every higher one.
-/

namespace Skirmish.Battle

open Skirmish.Formula

/-! ## Definitions that were read

What holds of every formula that is read with a vocabulary holds of the formulas of a definition
that was read with it. -/

section Reading

variable {v : Vocabulary} {P : Expr → Prop} (hP : ∀ {text e}, Expr.parse v text = .ok e → P e)

include hP

theorem forall_of_map_option {text? : Option String} {formula : Option Expr}
    (h : text?.map (Expr.parse v) = formula.map .ok) : ∀ e ∈ formula, P e := by
  rintro e rfl
  obtain ⟨text, -, he⟩ := Option.map_eq_some_iff.1 h
  exact hP he

theorem forall_of_map {texts : List String} {es : List Expr}
    (h : texts.map (Expr.parse v) = es.map .ok) : ∀ e ∈ es, P e := by
  intro e he
  have hread : Except.ok e ∈ texts.map (Expr.parse v) := h ▸ List.mem_map_of_mem he
  obtain ⟨text, -, htext⟩ := List.mem_map.1 hread
  exact hP htext

theorem DamageTypeDefinition.forall_of_compile {d : DamageTypeDefinition} {t : DamageType}
    (h : d.compile v = .ok t) :
    ∀ formula ∈ [t.mitigation, t.dodge, t.critChance, t.critModifier], ∀ e ∈ formula, P e := by
  obtain ⟨-, compiled⟩ := (d.compile_inOrder v).of_ok h
  intro formula hformula
  simp only [List.mem_cons, List.not_mem_nil, or_false] at hformula
  rcases hformula with rfl | rfl | rfl | rfl
  · exact forall_of_map_option hP compiled.mitigation
  · exact forall_of_map_option hP compiled.dodge
  · exact forall_of_map_option hP compiled.critChance
  · exact forall_of_map_option hP compiled.critModifier

theorem SkillDefinition.forall_of_compile {d : SkillDefinition} {s : Skill}
    (h : d.compile v = .ok s) : P s.formula := by
  obtain ⟨-, compiled⟩ := (d.compile_inOrder v).of_ok h
  exact hP compiled.formula

theorem StatusDefinition.forall_of_compile {d : StatusDefinition} {e : StatusEffect}
    (h : d.compile v = .ok e) : P e.interval ∧ (∀ limit ∈ e.maxStacks, P limit) ∧
      ∀ component ∈ e.components, P component := by
  obtain ⟨-, compiled⟩ := (d.compile_inOrder v).of_ok h
  exact ⟨hP compiled.interval, forall_of_map_option hP compiled.maxStacks,
    forall_of_map hP compiled.components⟩

end Reading

/-! ## Battles over a vocabulary -/

section Compiled

variable {v : Vocabulary}

/-- What is registered was read with the vocabulary. -/
def Command.Compiled (v : Vocabulary) : Command → Prop
  | addDamageType t => ∃ d : DamageTypeDefinition, d.compile v = .ok t
  | addEffect e => ∃ d : StatusDefinition, d.compile v = .ok e
  | addSkill s => ∃ d : SkillDefinition, d.compile v = .ok s
  | _ => True

theorem formulasOver_of_rules_eq {p : Function → Prop} {b c : Battle} (h : c.rules = b.rules)
    (hb : b.FormulasOver p) : c.FormulasOver p := by
  have hvocabulary : c.vocabulary = b.vocabulary := congrArg Rules.vocabulary h
  have hdamageTypes : c.damageTypes = b.damageTypes := congrArg Rules.damageTypes h
  have heffects : c.effects = b.effects := congrArg Rules.effects h
  have hskills : c.skills = b.skills := congrArg Rules.skills h
  exact
    { vocabulary := hvocabulary ▸ hb.vocabulary
      damageTypes := hdamageTypes ▸ hb.damageTypes
      skills := hskills ▸ hb.skills
      intervals := heffects ▸ hb.intervals
      maxStacks := heffects ▸ hb.maxStacks }

/-- What holds of an entry and of all entries of a table holds after the entry is put in. -/
theorem forall_get?_insert {α : Type} {P : α → Prop} {t : Table α} {name : String} {value : α}
    (hvalue : P value) (ht : ∀ key x, t.get? key = some x → P x) :
    ∀ key x, (t.insert name value).get? key = some x → P x := by
  intro key x h
  rw [Table.get?_insert] at h
  split at h
  · cases h
    exact hvalue
  · exact ht key x h

theorem formulasOver_perform {b : Battle} (hb : b.FormulasOver (· ∈ v.functions))
    {command : Command} (h : command.Compiled v) :
    (command.perform b).FormulasOver (· ∈ v.functions) := by
  cases command with
  | move m =>
    have hm : Proceeds true b (m.perform b) := proceeds_perform m (.inr rfl)
    exact formulasOver_of_rules_eq hm.rules_eq hb
  | addDamageType t =>
    obtain ⟨d, hd⟩ := h
    exact { hb with
      damageTypes := forall_get?_insert (P := (DamageType.FormulasOver (· ∈ v.functions)))
        (DamageTypeDefinition.forall_of_compile mem_functions_of_parse hd) hb.damageTypes }
  | addEffect e =>
    obtain ⟨d, hd⟩ := h
    obtain ⟨hinterval, hmaxStacks, -⟩ :=
      StatusDefinition.forall_of_compile mem_functions_of_parse hd
    exact { hb with
      intervals := forall_get?_insert hinterval hb.intervals
      maxStacks := forall_get?_insert hmaxStacks hb.maxStacks }
  | addSkill s =>
    obtain ⟨d, hd⟩ := h
    exact { hb with
      skills := forall_get?_insert (SkillDefinition.forall_of_compile mem_functions_of_parse hd)
        hb.skills }
  | insert key x =>
    refine formulasOver_of_rules_eq ?_ hb
    show (after (Battle.insert key x) b).rules = b.rules
    rw [after_insert]
    split <;> rfl
  | add key name side =>
    refine formulasOver_of_rules_eq ?_ hb
    show (after (Battle.insert key _) b).rules = b.rules
    rw [after_insert]
    split <;> rfl
  | remove key => exact formulasOver_of_rules_eq (b := b) rfl hb

theorem formulasOver_run {b : Battle} (hb : b.FormulasOver (· ∈ v.functions))
    {commands : List Command} (h : ∀ command ∈ commands, command.Compiled v) :
    (run b commands).FormulasOver (· ∈ v.functions) := by
  induction commands generalizing b with
  | nil => exact hb
  | cons command commands ih =>
    rw [run_cons]
    exact ih (formulasOver_perform hb (h command List.mem_cons_self)) fun c hc =>
      h c (List.mem_cons_of_mem command hc)

theorem formulasOver_new (settings : Settings) (v : Vocabulary) (now : Timestamp) (log : Log) :
    (new settings v now log).FormulasOver (· ∈ v.functions) where
  vocabulary _ h := h
  damageTypes _ _ h := by cases h
  skills _ _ h := by cases h
  intervals _ _ h := by cases h
  maxStacks _ _ h := by cases h

end Compiled

/-! ## Raised limits -/

/-- The battle with another limit of re-entry. -/
def withLimit (b : Battle) (limit : Nat) : Battle :=
  { b with settings := { b.settings with reentryLimit := limit } }

/-- The fault of going too deep. -/
def Refused (e : EvalError) : Prop := ∃ limit, e = .recursionLimit limit

/-- Unless the operation is refused for going too deep with the limit `L`, it answers the same with
the limit `L'` and leaves the same battle but for the limit. -/
def Stable {α : Type} (L L' : Nat) (op : Operation α) (b : Battle) : Prop :=
  match op (b.withLimit L) with
  | .ok a c => op (b.withLimit L') = .ok a (c.withLimit L')
  | .error (.eval (.recursionLimit _)) _ => True
  | .error e c => op (b.withLimit L') = .error e (c.withLimit L')

/-- The second battle is the first one, which is at depth `d`, with the limit `L'` in place of
`L`. -/
structure Raised (L L' d : Nat) (b c : Battle) : Prop where
  eq : c = b.withLimit L'
  limit : b.settings.reentryLimit = L
  depth : b.depth = d
  steady : b.FormulasOver (Function.Steady Refused)

section Raised

variable {L L' d : Nat} {b c : Battle}

theorem statusCoupling_raised (hle : L ≤ L') : StatusCoupling Refused L L' (Raised L L') where
  limits := .inr ⟨hle, L, rfl⟩
  eq h := by rw [h.eq]; rfl
  limit h := h.limit
  limit' h := by rw [h.eq]; rfl
  depth h := h.depth
  steady h := h.steady
  contains h := by rw [h.eq]; rfl
  hasStat h := by rw [h.eq]; rfl
  stat h := by rw [h.eq]; rfl
  players h := by rw [h.eq]; rfl
  activePlayers h := by rw [h.eq]; rfl
  other h n _ _ _ := ⟨by rw [h.eq]; rfl, h.limit, rfl, { h.steady with }⟩
  hit h _ _ := ⟨by rw [h.eq]; rfl, h.limit, h.depth, { h.steady with }⟩
  combatant {_ b _} h key := by
    rw [h.eq]
    show Option.Rel _ (b.combatant? key) (b.combatant? key)
    cases b.combatant? key with
    | none => exact .none
    | some x => exact .some ⟨rfl, rfl⟩
  append h _ _ := ⟨by rw [h.eq]; rfl, h.limit, h.depth, { h.steady with }⟩
  refresh h _ _ _ := ⟨by rw [h.eq]; rfl, h.limit, h.depth, { h.steady with }⟩

theorem follows_below (hle : L ≤ L') (h : Raised L L' d b c) (e : Expr) (he : e.Steady Refused) :
    Follows Refused Eq (Raised L L' (d + 1)) (b.below e) (c.below e) := by
  have C := statusCoupling_raised hle
  have hb : L - (d + 1) ≤ b.levels - 1 := by
    unfold levels
    rw [C.limit h, C.depth h]
    omega
  have hc : L - (d + 1) ≤ c.levels - 1 := by
    unfold levels
    rw [C.limit' h, C.depth' h]
    omega
  exact follows_resolve (C.follows_world hb hc) he

end Raised

/-! ## Operations -/

/-- The fault of an operation that went too deep. -/
def RefusedOperation : BattleError → Prop
  | .eval e => Refused e
  | _ => False

section Operations

variable {α : Type} {L L' d : Nat}

theorem follows_require (key : String) :
    Follows RefusedOperation Eq (Raised L L' d) (require key) (require key) := by
  intro b c h
  have hcontains : c.contains key = b.contains key := by rw [h.eq]; rfl
  unfold require
  rw [hcontains]
  split
  · exact .inr (.ok rfl h)
  · exact .inr (.error _ h)

theorem follows_act {action action' : Action Battle α}
    (h : Follows Refused Eq (Raised L L' d) action action') :
    Follows RefusedOperation Eq (Raised L L' d) (act action) (act action') := by
  intro b c hbc
  unfold act
  obtain ⟨e, s, hb, he⟩ | ⟨x, y, s, t, hb, hc, value, state⟩ | ⟨e, s, t, hb, hc, state⟩ :=
    h.ends hbc
  · rw [hb]
    exact .inl ⟨.eval e, s, rfl, he⟩
  · rw [hb, hc]
    exact .inr (.ok value state)
  · rw [hb, hc]
    exact .inr (.error _ state)

theorem stable_of_follows {op : Operation α} {b : Battle}
    (steady : b.FormulasOver (Function.Steady Refused))
    (h : Follows RefusedOperation Eq (Raised L L' b.depth) op op) : Stable L L' op b := by
  have hraised : Raised L L' b.depth (b.withLimit L) (b.withLimit L') :=
    ⟨rfl, rfl, rfl, { steady with }⟩
  unfold Stable
  obtain ⟨e, s, hb, he⟩ | ⟨x, y, s, t, hb, hc, value, state⟩ | ⟨e, s, t, hb, hc, state⟩ :=
    h.ends hraised
  · rw [hb]
    match e, he with
    | .eval _, ⟨limit, rfl⟩ => trivial
  · rw [hb, hc, value, state.eq]
  · rw [hb, hc, state.eq]
    split
    · next heq => cases heq
    · trivial
    · next heq =>
      cases heq
      rfl

end Operations

/-- No standard function goes on after a fault. -/
theorem steady_of_standard (E : EvalError → Prop) :
    ∀ f ∈ Vocabulary.standard.functions, f.Steady E := by
  have hall : ∀ f ∈ Vocabulary.standard.functions, f.rule ≠ .firstSuccess := by decide
  exact fun f hf h => absurd h (hall f hf)

/-- **Raising the limit.** On the standard vocabulary, whatever is read with it and registered, and
whatever happens, the formulas of a battle are over the standard functions. In every battle of which
this is so, damage, skills and statuses that are not refused for going too deep with one limit
answer the same with every higher limit, and leave the same battle. -/
theorem limit_raised :
    (∀ (settings : Settings) (now : Timestamp) (log : Log) (commands : List Command),
      (∀ command ∈ commands, command.Compiled .standard) →
        (run (new settings .standard now log) commands).FormulasOver
          (· ∈ Vocabulary.standard.functions)) ∧
    ∀ b : Battle, b.FormulasOver (· ∈ Vocabulary.standard.functions) → ∀ L L' : Nat, L ≤ L' →
      (∀ target amount type source logged,
        Stable L L' (dealDamage target amount type source logged) b) ∧
      (∀ caster target skill, Stable L L' (castSkill caster target skill) b) ∧
      ∀ target status source duration values,
        Stable L L' (applyStatus target status source duration values) b := by
  refine ⟨fun settings now log commands h =>
    formulasOver_run (formulasOver_new settings .standard now log) h, fun b hb L L' hle => ?_⟩
  have C := statusCoupling_raised hle
  have steady := hb.mono (steady_of_standard Refused)
  refine ⟨fun target amount type source logged => ?_, fun caster target skill => ?_,
    fun target status source duration values => ?_⟩
  · refine stable_of_follows steady (follows_bind_eq (follows_require target) fun _ => ?_)
    refine follows_get_bind fun b c h => ?_
    exact follows_act (C.follows_damage (fun _ => follows_below hle h) _ _ _ _ _) b c h
  · refine stable_of_follows steady (follows_bind_eq (follows_require caster) fun _ => ?_)
    refine follows_bind_eq (follows_require target) fun _ => follows_get_bind fun b c h => ?_
    exact follows_act (C.follows_useSkill (fun _ => follows_below hle h) _ _ _) b c h
  · refine stable_of_follows steady (follows_bind_eq (follows_require target) fun _ => ?_)
    refine follows_get_bind fun b c h => ?_
    exact follows_act (C.follows_inflict (fun _ => follows_below hle h) _ _ _ _ _) b c h

/-- A skill that heals is not refused with the limit 1, and heals the same with the limit 16. -/
theorem limit_raised_mend :
    let heal : Function := ⟨"HEAL", .exactly 3, .heal, [], []⟩
    let mend : Skill :=
      ⟨"mend", .call heal [.leaf (.key "$TARGET"), .leaf (.key "$CASTER"), .leaf (.key "STR")]⟩
    let commands : List Command := [.add "h" "H" .player, .addSkill mend]
    let b := run (new .standard) commands
    (∀ command ∈ commands, command.Compiled .standard) ∧
      b.FormulasOver (· ∈ Vocabulary.standard.functions) ∧
      (∃ c, castSkill "h" "h" "mend" (b.withLimit 1) = .ok .null c) ∧
      Stable 1 16 (castSkill "h" "h" "mend") b := by
  intro heal mend commands b
  have compiled : ∀ command ∈ commands, command.Compiled .standard := by
    intro command hcommand
    rcases List.mem_cons.1 hcommand with rfl | hcommand
    · trivial
    · cases List.mem_singleton.1 hcommand
      exact ⟨⟨"mend", "HEAL($TARGET,$CASTER,STR)"⟩, rfl⟩
  have formulas := limit_raised.1 .standard ⟨0⟩ .discarded commands compiled
  exact ⟨compiled, formulas, ⟨_, rfl⟩,
    (limit_raised.2 b formulas 1 16 (by decide)).2.1 "h" "h" "mend"⟩

end Skirmish.Battle
