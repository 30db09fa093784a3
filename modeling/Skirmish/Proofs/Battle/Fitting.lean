import Skirmish.Proofs.Battle.Reentry
import Skirmish.Proofs.Battle.Saturation

/-!
# Numbers of arguments

In a saturated battle nothing fails by a wrong number of operands or arguments.

1. `yields_world`: whatever formulas do, on whatever level.
2. `fits_tick`: the faults that a tick collects.
3. `yields_operation`, `arguments_fit`: operations.
-/

namespace Skirmish.Battle

open Skirmish.Formula

/-! ## Actions -/

section Actions

variable {v : Vocabulary} {α : Type} {V : α → Prop} {resolver : Resolver}

/-- From saturated battles the action ends in such a battle, and a number of arguments is not what
it fails by. -/
abbrev Fits (v : Vocabulary) (act : Action Battle α) : Prop :=
  Yields (Saturated v) EvalError.Fitting (fun _ => True) act

theorem yields_lift_battle {x : Except EvalError α} (h : Answers EvalError.Fitting V x) :
    Yields (Saturated v) EvalError.Fitting V (lift x) := by
  cases x with
  | ok a => exact yields_pure h
  | error e => exact yields_throw h

/-- The depth does not matter. -/
theorem yields_deeper {act : Action Battle α}
    (h : Yields (Saturated v) EvalError.Fitting V act) :
    Yields (Saturated v) EvalError.Fitting V (deeper act) := by
  intro b hb
  unfold deeper
  split
  · exact ⟨trivial, hb⟩
  · have hb' : Saturated v { b with depth := b.depth + 1 } := { hb with }
    cases hr : act { b with depth := b.depth + 1 } with
    | ok a c =>
      obtain ⟨ha, hc⟩ := h.of_ok hb' hr
      exact ⟨ha, { hc with }⟩
    | error e c =>
      obtain ⟨he, hc⟩ := h.of_error hb' hr
      exact ⟨he, { hc with }⟩

theorem fits_rollChance (percent : Float) : Fits v (rollChance percent) := by
  intro b hb
  unfold rollChance
  exact ⟨trivial, hb.roll 1000⟩

theorem fits_land (t : DamageType) (target source : String) (logged : Bool) (o : Outcome) :
    Fits v (land t target source logged o) := by
  intro b hb
  have hit := hb.adjustPersistent target b.settings.hpStat (-o.amount)
  unfold land
  split
  · cases logged with
    | true => exact ⟨trivial, hit.record _⟩
    | false => exact ⟨trivial, hit⟩
  · exact ⟨trivial, hb⟩

/-- What saturated formulas do fits. -/
def Resolver.Fits (v : Vocabulary) (resolver : Resolver) : Prop :=
  ∀ e : Expr, e.Saturated v → Battle.Fits v (resolver e)

section Statuses

variable (hr : resolver.Fits v)

include hr

theorem fits_resolveStatus {e : Expr} (he : e.Saturated v) (source target : String)
    (values : List Float) : Fits v (resolveStatus resolver e source target values) := by
  have hbound := Expr.answers_bindStatus source target values he
  exact yields_bind (yields_lift_battle hbound) hr

theorem yields_statusNumber {e : Expr} (he : e.Saturated v) (source target : String)
    (values : List Float) {k : Float → Action Battle α}
    (hk : ∀ x, Yields (Saturated v) EvalError.Fitting V (k x)) :
    Yields (Saturated v) EvalError.Fitting V
      (do k (← lift (← deeper (resolveStatus resolver e source target values)).asNumber)) :=
  yields_bind (yields_deeper (fits_resolveStatus hr he source target values)) fun value _ =>
    yields_bind (yields_lift_battle (answers_asNumber value)) fun x _ => hk x

variable {e : StatusEffect} (he : e.Saturated v)

include he

theorem fits_addStatus (target source : String) (duration : Float) (values : List Float) :
    Fits v (addStatus resolver e target source duration values) := by
  unfold addStatus
  refine yields_statusNumber hr he.interval source target values fun seconds => ?_
  refine yields_get_bind fun b hb => yields_bind (yields_set { hb with }) fun _ _ => ?_
  split
  · exact yields_modify fun _ hd => hd.append he
  · exact yields_throw trivial

theorem fits_mayStack (target source : String) (values : List Float) (count : Nat) :
    Fits v (mayStack resolver e target source values count) := by
  unfold mayStack
  cases h : e.maxStacks with
  | none => exact yields_pure trivial
  | some limit =>
    exact yields_statusNumber hr (he.maxStacks limit h) source target values fun _ =>
      yields_pure trivial

omit he in
theorem fits_inflict (target status source : String) (duration : Float) (values : List Float) :
    Fits v (inflict resolver target status source duration values) := by
  unfold inflict
  refine yields_get_bind fun b hb => ?_
  cases h : b.effects.get? status with
  | none => exact yields_throw trivial
  | some e =>
    have hadd : Fits v (do addStatus resolver e target source duration values; return true) :=
      yields_bind (fits_addStatus hr (hb.effects status e h) target source duration values)
        fun _ _ => yields_pure trivial
    dsimp only
    cases b.combatant? target with
    | none => exact yields_throw trivial
    | some x =>
      dsimp only
      cases e.stacking with
      | refresh =>
        dsimp only
        split
        · exact yields_bind (yields_modify fun _ hc => hc.alter fun _ => saturated_refreshFirst)
            fun _ _ => yields_pure trivial
        · exact hadd
      | none =>
        dsimp only
        split
        · exact yields_pure trivial
        · exact hadd
      | independent =>
        refine yields_bind
          (fits_mayStack hr (hb.effects status e h) target source values _) fun room _ => ?_
        cases room with
        | true => exact hadd
        | false => exact yields_pure trivial

end Statuses

variable (hv : v.Sound) (hr : resolver.Fits v)

include hv hr

theorem fits_resolveSkill {e : Expr} (he : e.Saturated v) (source target : String) :
    Fits v (resolveSkill resolver e source target) := by
  intro b hb
  unfold resolveSkill
  rw [hb.vocabulary]
  exact hr _ (Expr.saturated_bindSkill hv b.hasStat source target he) b hb

theorem fits_resolveMitigation {e : Expr} (he : e.Saturated v) (target source : String)
    (amount : Float) : Fits v (resolveMitigation resolver e target source amount) := by
  intro b hb
  unfold resolveMitigation
  rw [hb.vocabulary]
  exact hr _ (Expr.saturated_bindMitigation hv b.hasStat target source amount he) b hb

/-- A number of a skill's formula. -/
theorem yields_skillNumber {e : Expr} (he : e.Saturated v) (source target : String)
    {k : Float → Action Battle α} (hk : ∀ x, Yields (Saturated v) EvalError.Fitting V (k x)) :
    Yields (Saturated v) EvalError.Fitting V
      (do k (← lift (← resolveSkill resolver e source target).asNumber)) :=
  yields_bind (fits_resolveSkill hv hr he source target) fun value _ =>
    yields_bind (yields_lift_battle (answers_asNumber value)) fun x _ => hk x

/-- A roll against a percentage, unless the source is gone. -/
theorem fits_chance {e : Expr} (he : e.Saturated v) (source target : String) : Fits v (do
      if (← get).contains source then
        rollChance (← lift (← resolveSkill resolver e source target).asNumber)
      else return false) := by
  refine yields_get_bind fun b _ => ?_
  split
  · exact yields_skillNumber hv hr he source target fits_rollChance
  · exact yields_pure trivial

variable {t : DamageType} (ht : t.Saturated v)

include ht

theorem fits_isDodged (source target : String) : Fits v (isDodged resolver t source target) := by
  unfold isDodged
  cases h : t.dodge with
  | none => exact yields_pure trivial
  | some e => exact fits_chance hv hr (ht t.dodge (by simp) e h) source target

theorem fits_isCritical (source target : String) :
    Fits v (isCritical resolver t source target) := by
  unfold isCritical
  cases h : t.critChance with
  | none => exact yields_pure trivial
  | some e => exact fits_chance hv hr (ht t.critChance (by simp) e h) source target

theorem fits_multiplier (critical : Bool) (source target : String) :
    Fits v (multiplier resolver t critical source target) := by
  unfold multiplier
  cases h : t.critModifier with
  | none => exact yields_pure trivial
  | some e =>
    have he := ht t.critModifier (by simp) e h
    dsimp only
    split
    · exact yields_bind (fits_resolveSkill hv hr he source target) fun value _ =>
        yields_lift_battle (answers_asNumber value)
    · exact yields_pure trivial

theorem fits_outcome (raw : Float) (source target : String) :
    Fits v (outcome resolver t raw source target) := by
  unfold outcome
  refine yields_bind (fits_isCritical hv hr ht source target) fun critical _ =>
    yields_bind (fits_multiplier hv hr ht critical source target) fun factor _ => ?_
  cases h : t.mitigation with
  | none =>
    have hpure (x : Float) : Fits v (pure x) := yields_pure trivial
    exact yields_bind (hpure _) fun _ _ => yields_pure trivial
  | some e =>
    have he := ht t.mitigation (by simp) e h
    exact yields_bind (fits_resolveMitigation hv hr he target source _) fun value _ =>
      yields_bind (yields_lift_battle (answers_asNumber value)) fun _ _ => yields_pure trivial

omit ht

theorem fits_damage (target : String) (amount : Float) (type source : String) (logged : Bool) :
    Fits v (damage resolver target amount type source logged) := by
  unfold damage
  refine yields_get_bind fun b hb => ?_
  cases h : b.damageTypes.get? type with
  | none => exact yields_throw trivial
  | some t =>
    have ht := hb.damageTypes type t h
    refine yields_get_bind fun _ _ => ?_
    split
    · exact yields_pure trivial
    · refine yields_deeper (yields_bind (fits_isDodged hv hr ht source target) fun dodged _ => ?_)
      split
      · split
        · exact yields_bind (yields_modify fun _ hc => hc.record _) fun _ _ => yields_pure trivial
        · exact yields_pure trivial
      · exact yields_bind (fits_outcome hv hr ht amount source target) fun o _ =>
          fits_land t target source logged o

theorem fits_useSkill (caster target skill : String) :
    Fits v (useSkill resolver caster target skill) := by
  unfold useSkill
  refine yields_get_bind fun b hb => ?_
  cases h : b.skills.get? skill with
  | none => exact yields_throw trivial
  | some s =>
    exact yields_deeper (fits_resolveSkill hv hr (hb.skills skill s h) caster target)

/-! ## Worlds -/

/-- What a formula does fits where the formulas that it sets off do. -/
theorem yields_worldWith : (worldWith resolver).Yields (Saturated v) EvalError.Fitting where
  stat b _ entity stat := by
    show Answers _ _ (b.statOrFault entity stat)
    unfold statOrFault
    split
    · trivial
    · split <;> trivial
  harm target source type amount := yields_discard (fits_damage hv hr target amount type source _)
  heal target source amount := yields_modify fun _ hb => hb.restore target amount source true
  cast caster target skill := yields_discard (fits_useSkill hv hr caster target skill)
  inflict target source status duration values :=
    yields_discard (fits_inflict hr target status source duration values)
  roll upper _ hb := hb.roll upper

omit hr in
/-- **Levels.** With any number of levels left, formulas keep a battle saturated, and the actions
that they take fail by no number of arguments. -/
theorem yields_world (n : Nat) : (world n).Yields (Saturated v) EvalError.Fitting := by
  induction n with
  | zero => exact yields_worldWith hv fun _ _ => fun _ hb => ⟨trivial, hb⟩
  | succ n ih =>
    exact yields_worldWith hv fun e he => (yields_resolve hv ih he).mono fun _ _ => trivial

omit hr in
theorem fits_resolve_world (n : Nat) : Resolver.Fits v fun e => e.resolve (world n) :=
  fun _ he => (yields_resolve hv (yields_world hv n) he).mono fun _ _ => trivial

end Actions

/-! ## Ticks -/

section Ticks

variable {v : Vocabulary}

/-- From saturated battles the pass ends in such a battle, and none of its faults is a number of
arguments. -/
def Pass.Fits (v : Vocabulary) (pass : Pass) : Prop :=
  ∀ b, b.Saturated v → (∀ e ∈ (pass b).1, e.Fitting) ∧ (pass b).2.Saturated v

theorem fits_attempt {act : Action Battle Unit}
    (h : Fits v act) : Pass.Fits v (attempt act) := by
  intro b hb
  unfold attempt
  cases hr : act b with
  | ok a c => exact ⟨nofun, (h.of_ok hb hr).2⟩
  | error e c => exact (h.of_error hb hr).imp_left List.forall_mem_singleton.2

theorem fits_forEach {α : Type} {xs : List α} {pass : α → Pass}
    (h : ∀ x ∈ xs, Pass.Fits v (pass x)) : Pass.Fits v (forEach xs pass) := by
  induction xs with
  | nil => exact fun b hb => ⟨nofun, hb⟩
  | cons x rest ih =>
    obtain ⟨hx, hrest⟩ := List.forall_mem_cons.1 h
    intro b hb
    obtain ⟨hfaults, hnext⟩ := hx b hb
    obtain ⟨hfaults', hlast⟩ := ih hrest _ hnext
    rw [forEach_cons]
    exact ⟨List.forall_mem_append.2 ⟨hfaults, hfaults'⟩, hlast⟩

variable {resolver : Resolver} (hr : resolver.Fits v)

include hr

section Components

variable {s : ActiveStatus} {component : Expr} (hc : component.Saturated v) (target : String)

include hc

theorem fits_evalComponent : Fits v (evalComponent resolver target s component) :=
  yields_deeper (fits_resolveStatus hr hc s.source target s.values)

theorem fits_applyModifier : Fits v (applyModifier resolver target s component) :=
  yields_bind (fits_evalComponent hr hc target) fun value _ =>
    yields_bind (yields_lift_battle (answers_asModifier value)) fun _ _ =>
      yields_modify fun _ hb => hb.alter fun _ h => h

theorem fits_applyEffect : Fits v (applyEffect resolver target s component) :=
  yields_discard (fits_evalComponent hr hc target)

end Components

theorem fits_tick (key : String) : Pass.Fits v (tick resolver key) := by
  intro b hb
  unfold tick
  cases hx : b.combatant? key with
  | none => exact ⟨nofun, hb⟩
  | some x =>
    have hdue : ∀ s ∈ (sweep b.now x).statuses.filter (·.isDue b.now), s.effect.Saturated v :=
      fun s hs => hb.carried key s
        (mem_statusesOf.2 ⟨x, hx, (List.mem_filter.1 (List.mem_filter.1 hs).1).1⟩)
    have hmodifiers : Pass.Fits v (modifiersPass resolver key _) :=
      fits_forEach fun s hs => fits_forEach fun e he => fits_attempt
        (fits_applyModifier hr ((hdue s hs).components e (List.mem_filter.1 he).1) key)
    have heffects : Pass.Fits v (effectsPass resolver key _) :=
      fits_forEach fun s hs => fits_forEach fun e he => fits_attempt
        (fits_applyEffect hr ((hdue s hs).components e (List.mem_filter.1 he).1) key)
    obtain ⟨hfirst, hb⟩ := hmodifiers _ (hb.sweep key b.now)
    obtain ⟨hsecond, hb⟩ := heffects _ hb
    exact ⟨List.forall_mem_append.2 ⟨hfirst, hsecond⟩, hb.stamp key _ _⟩

theorem fits_tickAll : Pass.Fits v (tickAll resolver) :=
  fun b hb => fits_forEach (fun key _ => fits_tick hr key) b hb

end Ticks

/-! ## Operations -/

/-- A fault other than a wrong number of operands or arguments. -/
def BattleError.Fitting : BattleError → Prop
  | .eval e => e.Fitting
  | _ => True

/-- A fault of a move other than a wrong number of operands or arguments, once its formula was
read. -/
def Move.Fits : (m : Move) → m.Fault → Prop
  | evaluate _ => fun
    | .eval e => e.Fitting
    | .parse _ => True
  | resolve _ | tryDodge .. | tryMitigation .. => EvalError.Fitting
  | damage .. | heal .. | cast .. | apply .. | update | updateOne _ | cleanse _ | compound ..
  | advance _ | setTime _ => BattleError.Fitting

section Operations

variable {v : Vocabulary} {α : Type} {V : α → Prop}

theorem yields_require (key : String) :
    Yields (Saturated v) BattleError.Fitting (fun _ => True) (require key) := by
  intro b hb
  unfold require
  split <;> exact ⟨trivial, hb⟩

theorem yields_act {action : Action Battle α}
    (h : Yields (Saturated v) EvalError.Fitting V action) :
    Yields (Saturated v) BattleError.Fitting V (act action) := by
  intro b hb
  unfold act
  cases hr : action b with
  | ok a c => exact h.of_ok hb hr
  | error e c => exact h.of_error hb hr

theorem yields_finish {pass : Pass} (h : pass.Fits v) :
    Yields (Saturated v) BattleError.Fitting (fun _ => True) (finish pass) := by
  intro b hb
  obtain ⟨hfaults, hend⟩ := h b hb
  rw [finish_apply]
  cases hpass : (pass b).1 with
  | nil => exact ⟨trivial, hend⟩
  | cons e rest =>
    rw [hpass] at hfaults
    exact ⟨hfaults e List.mem_cons_self, hend⟩

variable (hv : v.Sound)

include hv

theorem fits_below (b : Battle) : Resolver.Fits v b.below := fits_resolve_world hv _

/-- **Moves.** In a saturated battle a move with formulas that were read fails by no number of
arguments, and it leaves the battle saturated. -/
theorem yields_operation {m : Move} (hm : m.Sourced v) :
    Yields (Saturated v) m.Fits (fun _ => True) m.operation := by
  cases m with
  | damage target amount type source logged =>
    exact yields_bind (yields_require target) fun _ _ => yields_get_bind fun b _ =>
      yields_act (fits_damage hv (fits_below hv b) target amount type source logged)
  | heal target amount source logged =>
    exact yields_bind (yields_require target) fun _ _ =>
      yields_modify fun _ hb => hb.restore target amount source logged
  | cast caster target skill =>
    exact yields_bind (yields_require caster) fun _ _ => yields_bind (yields_require target)
      fun _ _ => yields_get_bind fun b _ =>
        yields_act (fits_useSkill hv (fits_below hv b) caster target skill)
  | apply target status source duration values =>
    exact yields_bind (yields_require target) fun _ _ => yields_get_bind fun b _ =>
      yields_act (fits_inflict (fits_below hv b) target status source duration values)
  | update =>
    exact yields_get_bind fun b _ => yields_finish (fits_tickAll (fits_below hv b))
  | updateOne key =>
    exact yields_bind (yields_require key) fun _ _ => yields_get_bind fun b _ =>
      yields_finish (fits_tick (fits_below hv b) key)
  | cleanse key =>
    exact yields_bind (yields_require key) fun _ _ => yields_modify fun _ hb =>
      hb.alter fun _ _ => nofun
  | compound key text =>
    refine yields_bind (yields_require key) fun _ _ => yields_get_bind fun b hb => ?_
    rw [hb.vocabulary]
    cases h : Expr.parse v text with
    | error e => exact yields_throw trivial
    | ok e =>
      have he := Expr.saturated_bindCompound hv b.hasStat key (saturated_of_parse hv h)
      exact yields_act (yields_bind (fits_resolve_world hv b.levels _ he) fun value _ =>
        yields_lift_battle (answers_asNumber value))
  | evaluate text =>
    intro b hb
    show Ends _ _ _ (Formula.evaluate b.vocabulary (world b.levels) text b)
    unfold Formula.evaluate
    rw [hb.vocabulary]
    cases h : Expr.parse v text with
    | error e => exact ⟨trivial, hb⟩
    | ok e =>
      have he := fits_resolve_world hv b.levels e (saturated_of_parse hv h)
      dsimp only
      cases hr : e.resolve (world b.levels) b with
      | ok x c => exact he.of_ok hb hr
      | error err c => exact he.of_error hb hr
  | resolve e =>
    obtain ⟨text, x, bindings, hx, hbound⟩ := hm
    have he := answers_bindAll hv bindings (saturated_of_parse hv hx)
    rw [hbound] at he
    exact fun b hb => fits_resolve_world hv b.levels e he b hb
  | tryDodge t source target =>
    obtain ⟨d, hd⟩ := hm
    have ht := DamageTypeDefinition.saturated_of_compile hv hd
    exact fun b hb => fits_isDodged hv (fits_resolve_world hv b.levels) ht source target b hb
  | tryMitigation t raw source target =>
    obtain ⟨d, hd⟩ := hm
    have ht := DamageTypeDefinition.saturated_of_compile hv hd
    exact fun b hb => fits_outcome hv (fits_resolve_world hv b.levels) ht raw source target b hb
  | advance | setTime => exact yields_modify fun _ hb => { hb with }

end Operations

/-- **Arguments.** On the standard vocabulary nothing fails by a wrong number of operands or
arguments:

1. An expression that was read and bound, in any world whose own actions do not fail so. If it gives
   a value, that is no operator and no function, and holds none at any depth.
2. What formulas do to a battle all of whose formulas were read, on whatever level.
3. Operations on a battle whose content was read with the vocabulary, at whatever depth. -/
theorem arguments_fit :
    (∀ (text : String) (x e : Expr) (bindings : List Binding),
      Expr.parse .standard text = .ok x → x.bindAll .standard bindings = .ok e →
        ∀ (σ : Type) (w : World σ), w.Yields (fun _ => True) EvalError.Fitting → ∀ s,
          match e.resolve w s with
          | .ok value _ => value.Inert
          | .error err _ => err.Fitting) ∧
      (∀ n, (world n).Yields (Saturated .standard) EvalError.Fitting) ∧
      ∀ (settings : Settings) (now : Timestamp) (log : Log) (commands : List Command),
        (∀ command ∈ commands, command.Sourced .standard) →
          let b := run (new settings .standard now log) commands
          b.Saturated .standard ∧ ∀ (m : Move) (depth : Nat), m.Sourced .standard →
            ∀ err c, m.operation { b with depth } = .error err c → m.Fits err := by
  refine ⟨fun text x e bindings hx he σ w hw s => ?_, yields_world sound_standard,
    fun settings now log commands hcommands => ?_⟩
  · have hbound := answers_bindAll sound_standard bindings (saturated_of_parse sound_standard hx)
    rw [he] at hbound
    have hresolve := yields_resolve sound_standard hw hbound
    cases hr : e.resolve w s with
    | ok value t => exact (hresolve.of_ok trivial hr).1
    | error err t => exact (hresolve.of_error trivial hr).1
  · have hb := saturated_run sound_standard (saturated_new settings .standard now log) hcommands
    refine ⟨hb, fun m depth hm err c herr => ?_⟩
    refine ((yields_operation sound_standard hm).of_error ?_ herr).1
    exact { hb with }

/-- An array of the caster and one of its stats, where there is no one else, and a skill that heals,
cast at a depth where it is refused. -/
theorem arguments_fit_array :
    let w : World Generator :=
      { World.deserted with
        entityExists := fun _ name => name = "h"
        stat := fun _ _ _ => .ok 5 }
    let array : Function := ⟨"ARRAY", .atLeast 0, .array, [], []⟩
    let stat : Function := ⟨"GET_PROP", .exactly 2, .stat, [], [1]⟩
    let heal : Function := ⟨"HEAL", .exactly 3, .heal, [], []⟩
    let x : Expr := .call array [.leaf (.key "$CASTER"), .leaf (.key "STR")]
    let e : Expr := .call array
      [.leaf (.key "h"), .call stat [.leaf (.key "h"), .leaf (.key "STR")]]
    let bindings : List Binding := [.roles "h" "g", .stats (· = "STR") "h"]
    let mend : Skill :=
      ⟨"mend", .call heal [.leaf (.key "$TARGET"), .leaf (.key "$CASTER"), .leaf (.key "STR")]⟩
    let commands : List Command := [.add "h" "H" .player, .addSkill mend]
    let b := { run (new .standard) commands with depth := 16 }
    (Expr.parse .standard "ARRAY($CASTER,STR)" = .ok x ∧ x.bindAll .standard bindings = .ok e ∧
      e.resolve w ⟨0⟩ = .ok (.array [.entity "h", .number 5]) ⟨0⟩ ∧
      (Value.array [.entity "h", .number 5]).Inert) ∧
    (∀ command ∈ commands, command.Sourced .standard) ∧
    (Move.cast "h" "h" "mend").operation b = .error (.eval (.recursionLimit 16)) b ∧
      (Move.cast "h" "h" "mend").Fits (.eval (.recursionLimit 16)) := by
  intro w array stat heal x e bindings mend commands b
  have hw : w.Yields (fun _ => True) EvalError.Fitting :=
    { stat := fun _ _ _ _ => trivial
      harm := fun _ _ _ _ => yields_throw trivial
      heal := fun _ _ _ => yields_throw trivial
      cast := fun _ _ _ => yields_throw trivial
      inflict := fun _ _ _ _ _ => yields_throw trivial
      roll := fun _ _ _ => trivial }
  have hsourced : ∀ command ∈ commands, command.Sourced .standard := by
    intro command hcommand
    rcases List.mem_cons.1 hcommand with rfl | hcommand
    · trivial
    · cases List.mem_singleton.1 hcommand
      exact ⟨⟨"mend", "HEAL($TARGET,$CASTER,STR)"⟩, rfl⟩
  have hvalue := arguments_fit.1 "ARRAY($CASTER,STR)" x e bindings rfl rfl Generator w hw ⟨0⟩
  obtain ⟨-, hmoves⟩ := arguments_fit.2.2 .standard ⟨0⟩ .discarded commands hsourced
  have herr : (Move.cast "h" "h" "mend").operation b = .error (.eval (.recursionLimit 16)) b := rfl
  exact ⟨⟨rfl, rfl, rfl, hvalue⟩, hsourced, herr, hmoves (.cast "h" "h" "mend") 16 trivial _ _ herr⟩

end Skirmish.Battle
