import Skirmish.Proofs.Battle.Coupling
import Skirmish.Proofs.Battle.Purging

/-!
# All or nothing

Formulas that act on no battle do nothing to it but roll dice. Where only such formulas decide, an
operation takes place as a whole or leaves no trace but what was rolled.

1. `AllOrNothing`: how an action ends that leaves nothing but rolls behind when it fails. It is
   closed under the ways in which actions are put together.
2. `damage_all_or_nothing`: damage lands, is dodged, or fails.
3. `application_all_or_nothing`: a status is put off, is added, or nothing happens to it.
-/

namespace Skirmish.Battle

open Skirmish.Formula

/-- To change a combatant is to replace it by the changed one. -/
theorem alter_eq_insert {b : Battle} {key : String} {x : Combatant}
    (there : b.combatant? key = some x) (f : Combatant → Combatant) :
    b.alter key f = { b with combatants := b.combatants.insert key (f x) } := by
  unfold alter
  rw [Table.modify_eq_insert there]

/-! ## Rolls -/

/-- Nothing was done but to roll dice. -/
def Rolled (b c : Battle) : Prop := ∃ dice, c = { b with dice }

instance : IsPreorder Battle Rolled where
  refl b := ⟨b.dice, rfl⟩
  trans := by
    rintro b _ _ ⟨_, rfl⟩ ⟨dice, rfl⟩
    exact ⟨dice, rfl⟩

theorem rolled_roll (upper : UInt32) (b : Battle) : Rolled b (b.roll upper).2 := ⟨_, rfl⟩

/-- The depth is none of the dice's concern. -/
theorem Rolled.of_deeper {b c : Battle} (h : Rolled { b with depth := b.depth + 1 } c) :
    Rolled b { c with depth := c.depth - 1 } := by
  obtain ⟨dice, rfl⟩ := h
  exact ⟨dice, rfl⟩

theorem rolls_deeper {α : Type} {act : Action Battle α} (h : Keeps Rolled act) :
    Keeps Rolled (deeper act) := by
  intro b
  rw [after_deeper]
  split
  · exact refl_of Rolled b
  · exact (h _).of_deeper

section Formulas

variable (b : Battle) {e : Expr} {source target : String}

theorem rolls_below (h : e.Passive) : Keeps Rolled (b.below e) :=
  h.keeps fun upper c => by
    cases b.levels - 1 <;> exact rolled_roll upper c

theorem rolls_resolveSkill (h : e.Quiet) :
    Keeps Rolled (resolveSkill b.below e source target) :=
  fun c => rolls_below b (h.passive_bindSkill c.vocabulary c.hasStat source target) c

theorem rolls_resolveMitigation (h : e.Quiet) (amount : Float) :
    Keeps Rolled (resolveMitigation b.below e target source amount) :=
  fun c => rolls_below b (h.passive_bindMitigation c.vocabulary c.hasStat target source amount) c

theorem rolls_resolveStatus (h : e.Quiet) (values : List Float) :
    Keeps Rolled (resolveStatus b.below e source target values) := by
  unfold resolveStatus
  cases he : e.bindStatus source target values with
  | error err => exact keeps_throw err
  | ok x => exact rolls_below b (h.of_bindStatus he).passive

end Formulas

/-! ## Ends -/

/-- If it fails, it leaves nothing of its doings in the battle but rolls. If not, `Q` holds. -/
def AllOrNothing {ε α : Type} (b : Battle) (Q : α → Battle → Prop) :
    EStateM.Result ε Battle α → Prop
  | .ok a c => Q a c
  | .error _ c => Rolled b c

section Ends

variable {ε α β : Type} {b c : Battle} {P : α → Battle → Prop} {Q : β → Battle → Prop}

theorem AllOrNothing.bind {act : EStateM ε Battle α} {k : α → EStateM ε Battle β}
    (h : AllOrNothing b P (act c)) (hk : ∀ a d, P a d → AllOrNothing b Q (k a d)) :
    AllOrNothing b Q ((act >>= k) c) := by
  cases hact : act c with
  | ok a d =>
    rw [hact] at h
    rw [bind_of_ok hact]
    exact hk a d h
  | error e d =>
    rw [hact] at h
    rw [bind_of_error hact]
    exact h

theorem AllOrNothing.mono {P' : α → Battle → Prop} {r : EStateM.Result ε Battle α}
    (h : AllOrNothing b P r) (hP : ∀ a d, P a d → P' a d) : AllOrNothing b P' r := by
  cases r with
  | ok a d => exact hP a d h
  | error e d => exact h

/-- What does nothing but roll ends like this. -/
theorem allOrNothing_of_rolls {act : EStateM ε Battle α} (h : Keeps Rolled act)
    (hc : Rolled b c) : AllOrNothing b (fun _ d => Rolled b d) (act c) := by
  cases hact : act c with
  | ok a d => exact trans_of Rolled hc (h.of_ok hact)
  | error e d => exact trans_of Rolled hc (h.of_error hact)

theorem allOrNothing_deeper {act : Action Battle α}
    (h : AllOrNothing { b with depth := b.depth + 1 }
      (fun a c => P a { c with depth := c.depth - 1 }) (act { b with depth := b.depth + 1 })) :
    AllOrNothing b P (deeper act b) := by
  unfold deeper
  split
  · exact refl_of Rolled b
  · cases hact : act { b with depth := b.depth + 1 } with
    | ok a c =>
      rw [hact] at h
      exact h
    | error e c =>
      rw [hact] at h
      exact h.of_deeper

theorem allOrNothing_act {action : Action Battle α} (h : AllOrNothing b P (action c)) :
    AllOrNothing b P (act action c) := by
  unfold act
  cases hact : action c <;> rw [hact] at h <;> exact h

theorem allOrNothing_require {key : String} {k : Operation α}
    (h : ∀ x, b.combatant? key = some x → AllOrNothing b P (k b)) :
    AllOrNothing b P ((require key >>= fun _ => k) b) := by
  by_cases there : b.contains key = true
  · obtain ⟨x, hx⟩ := Option.isSome_iff_exists.1 there
    rw [bind_of_ok (require_of_contains there)]
    exact h x hx
  · rw [bind_of_error (require_of_absent there)]
    exact refl_of Rolled b

end Ends

/-! ## Damage -/

section Damage

variable {b : Battle} {target type source : String} {amount : Float} {logged : Bool}
  {d : DamageType}

theorem rolls_isDodged (quiet : d.FormulasOver fun f => f.rule.acts = false) :
    Keeps Rolled (isDodged b.below d source target) :=
  keeps_isDodged rolled_roll fun e he => rolls_resolveSkill b (quiet d.dodge (by simp) e he)

theorem rolls_outcome (quiet : d.FormulasOver fun f => f.rule.acts = false) :
    Keeps Rolled (outcome b.below d amount source target) :=
  keeps_outcome rolled_roll
    (fun e he => rolls_resolveSkill b (quiet d.critChance (by simp) e he))
    (fun e he => rolls_resolveSkill b (quiet d.critModifier (by simp) e he))
    fun e he => rolls_resolveMitigation b (quiet d.mitigation (by simp) e he)

/-- What a battle becomes when damage of a type is dealt to a target `x`: it is dodged, or it has an
outcome. -/
def Dealt (b : Battle) (d : DamageType) (x : Combatant) (target source : String) (logged : Bool) :
    Option Outcome → Battle → Prop
  | none, c => ∃ dice, c = { b with
      dice, log := if logged then b.log.record (.dodge target source d.key) else b.log }
  | some o, c => ∃ dice, c = { b with
      dice, log := if logged then b.log.record (.damage target source d.key o) else b.log,
      combatants := b.combatants.insert target { x with
        base := x.base.insert b.settings.hpStat
          ((x.base.get? b.settings.hpStat).getD 0 + -o.amount),
        derived := x.derived.insert b.settings.hpStat
          ((x.derived.get? b.settings.hpStat).getD 0 + -o.amount) } }

theorem Dealt.of_deeper {x : Combatant} {o : Option Outcome} {c : Battle}
    (h : Dealt { b with depth := b.depth + 1 } d x target source logged o c) :
    Dealt b d x target source logged o { c with depth := c.depth - 1 } := by
  cases o with
  | none =>
    obtain ⟨dice, rfl⟩ := h
    exact ⟨dice, rfl⟩
  | some o =>
    obtain ⟨dice, rfl⟩ := h
    exact ⟨dice, rfl⟩

theorem dealt_land {c : Battle} {x : Combatant} (there : b.combatant? target = some x)
    (hc : Rolled b c) (o : Outcome) :
    AllOrNothing b (Dealt b d x target source logged) (land d target source logged o c) := by
  obtain ⟨dice, rfl⟩ := hc
  have hcontains : Battle.contains { b with dice } target = true := contains_of_combatant? there
  unfold land
  rw [if_pos hcontains]
  refine ⟨dice, ?_⟩
  rw [alter_eq_insert (b := { b with dice }) there]
  cases logged <;> rfl

theorem dealt_damage {x : Combatant} (known : b.damageTypes.get? type = some d)
    (there : b.combatant? target = some x)
    (quiet : d.FormulasOver fun f => f.rule.acts = false) :
    AllOrNothing b (Dealt b d x target source logged)
      (damage b.below target amount type source logged b) := by
  have hcontains : b.contains target = true := contains_of_combatant? there
  unfold damage
  rw [get_bind]
  simp only [known]
  rw [get_bind, hcontains]
  refine allOrNothing_deeper <|
    .bind (allOrNothing_of_rolls (rolls_isDodged quiet) (refl_of Rolled _)) fun dodged c hc => ?_
  cases dodged with
  | true =>
    obtain ⟨dice, rfl⟩ := hc
    cases logged <;> exact ⟨dice, rfl⟩
  | false =>
    exact .bind (allOrNothing_of_rolls (rolls_outcome quiet) hc) fun o _ hc =>
      (dealt_land (b := { b with depth := b.depth + 1 }) there hc o).mono fun _ _ => Dealt.of_deeper

end Damage

/-- **Damage is all or nothing.** Where the formulas of its type act on no battle, damage that is
dealt in a battle, at whatever depth,

1. lands: its amount is taken from the lasting and from the current hit points of the target, which
   are zero if they are missing, and told in the log if that was asked for;
2. or is dodged: this is told in the log if that was asked for;
3. or fails.

Nothing else is changed but the dice. -/
theorem damage_all_or_nothing (b : Battle) (target : String) (amount : Float)
    (type source : String) (logged : Bool)
    (quiet : ∀ d, b.damageTypes.get? type = some d → d.FormulasOver fun f => f.rule.acts = false) :
    AllOrNothing b
      (fun o c => ∃ d x, b.damageTypes.get? type = some d ∧ b.combatant? target = some x ∧
        b.Dealt d x target source logged o c)
      (dealDamage target amount type source logged b) := by
  refine allOrNothing_require fun x there => allOrNothing_act ?_
  cases known : b.damageTypes.get? type with
  | none =>
    unfold damage
    rw [get_bind, known]
    exact refl_of Rolled b
  | some d =>
    exact (dealt_damage known there (quiet d known)).mono fun _ _ h => ⟨d, x, rfl, there, h⟩

/-- A bolt, of which as much lands as the target has of a stat: it lands on a target that is there,
and is refused on another. -/
theorem damage_all_or_nothing_bolt :
    let bolt : DamageType := {
      key := "bolt"
      mitigation := some (.call ⟨"ABS", .exactly 1, .magnitude, [], []⟩ [.leaf (.key "DEF")])
      dodge := some (.leaf (.number 0))
      critChance := none
      critModifier := none }
    let b := run (new .standard) [.add "h" "H" .player, .addDamageType bolt]
    let lands (target : String) : Bool :=
      match dealDamage target 25 "bolt" "h" true b with
      | .ok (some _) _ => true
      | _ => false
    (lands "h" = true ∧ lands "m" = false) ∧
      (∀ d, b.damageTypes.get? "bolt" = some d → d.FormulasOver fun f => f.rule.acts = false) ∧
      AllOrNothing b
        (fun o c => ∃ d x, b.damageTypes.get? "bolt" = some d ∧ b.combatant? "h" = some x ∧
          b.Dealt d x "h" "h" true o c)
        (dealDamage "h" 25 "bolt" "h" true b) := by
  intro bolt b lands
  have hbolt : bolt.FormulasOver fun f => f.rule.acts = false := by
    unfold DamageType.FormulasOver
    decide +kernel
  have quiet : ∀ d, b.damageTypes.get? "bolt" = some d →
      d.FormulasOver fun f => f.rule.acts = false :=
    fun d known => Option.some.inj known ▸ hbolt
  exact ⟨by decide +kernel, quiet, damage_all_or_nothing b "h" 25 "bolt" "h" true quiet⟩

/-! ## Applications of statuses -/

section Applications

variable {b c : Battle} {e : StatusEffect} {x : Combatant} {target status source : String}
  {duration : Float} {values : List Float}

theorem rolls_mayStack (quiet : e.Quiet) (count : Nat) :
    Keeps Rolled (mayStack b.below e target source values count) := by
  unfold mayStack
  cases hlimit : e.maxStacks with
  | none => exact keeps_pure _
  | some limit =>
    exact keeps_bind (rolls_deeper (rolls_resolveStatus b (quiet.1 limit hlimit) values)) fun _ =>
      keeps_bind (keeps_lift_battle _) fun _ => keeps_pure _

/-- An instance of a status was put on a target `x`, as the latest one. -/
def Afflicted (b : Battle) (e : StatusEffect) (x : Combatant) (target source : String)
    (duration : Float) (values : List Float) (c : Battle) : Prop :=
  ∃ seconds dice, c = { b with
    dice, nextStatusId := b.nextStatusId + 1,
    combatants := b.combatants.insert target { x with
      statuses := x.statuses ++ [
        { id := b.nextStatusId, effect := e, source, lastTick := none,
          removal := removalTime b.now duration, interval := wholeMillis (seconds * 1000),
          values }] } }

/-- The end of the first instance of a status on a target `x` was put off. -/
def Prolonged (b : Battle) (status : String) (x : Combatant) (target : String) (duration : Float)
    (c : Battle) : Prop :=
  ∃ before s later, x.statuses = before ++ s :: later ∧ s.key = status ∧
    (∀ t ∈ before, t.key ≠ status) ∧ c = { b with
      combatants := b.combatants.insert target { x with
        statuses := before ++ { s with removal := removalTime b.now duration } :: later } }

theorem afflicted_addStatus (there : b.combatant? target = some x) (quiet : e.Quiet)
    (hc : Rolled b c) :
    AllOrNothing b (fun _ => Afflicted b e x target source duration values)
      (addStatus b.below e target source duration values c) := by
  have hrolls : Keeps Rolled (deeper (resolveStatus b.below e.interval source target values)) :=
    rolls_deeper (rolls_resolveStatus b quiet.2 values)
  cases hv : deeper (resolveStatus b.below e.interval source target values) c with
  | error err c' =>
    unfold addStatus
    rw [bind_of_error hv]
    exact trans_of Rolled hc (hrolls.of_error hv)
  | ok v c' =>
    have hc' : Rolled b c' := trans_of Rolled hc (hrolls.of_ok hv)
    cases hs : v.asNumber with
    | error err =>
      rw [addStatus_of_not_number hv hs]
      exact hc'
    | ok seconds =>
      obtain ⟨dice, rfl⟩ := hc'
      rw [addStatus_of_number hv hs (contains_of_combatant? there)]
      exact ⟨seconds, dice, alter_eq_insert
        (b := { b with dice, nextStatusId := b.nextStatusId + 1 }) there _⟩

theorem refreshFirst_of_any {l : List ActiveStatus} (h : l.any (·.key = status))
    (removal : Option Timestamp) :
    ∃ before s later, l = before ++ s :: later ∧ s.key = status ∧ (∀ t ∈ before, t.key ≠ status) ∧
      refreshFirst status removal l = before ++ { s with removal } :: later := by
  induction l with
  | nil => cases h
  | cons s rest ih =>
    rw [refreshFirst]
    by_cases hs : s.key = status
    · exact ⟨[], s, rest, rfl, hs, fun _ h => absurd h List.not_mem_nil, if_pos hs⟩
    · rw [List.any_cons, decide_eq_false hs, Bool.false_or] at h
      obtain ⟨before, t, later, rfl, ht, hbefore, hrefresh⟩ := ih h
      refine ⟨s :: before, t, later, rfl, ht, List.forall_mem_cons.2 ⟨hs, hbefore⟩, ?_⟩
      rw [if_neg hs, hrefresh]
      rfl

theorem prolonged_prolong (there : b.combatant? target = some x)
    (has : x.hasStatus status = true) :
    Prolonged b status x target duration (b.prolong target status duration) := by
  obtain ⟨before, s, later, hx, hs, hbefore, hrefresh⟩ :=
    refreshFirst_of_any has (removalTime b.now duration)
  refine ⟨before, s, later, hx, hs, hbefore, ?_⟩
  unfold prolong
  rw [alter_eq_insert there, hrefresh]

/-- What a battle becomes when a status is applied to a target `x`, and nothing or something comes
of it. A refreshed status is put off without a look at its formulas. -/
def Applied (b : Battle) (e : StatusEffect) (x : Combatant) (target status source : String)
    (duration : Float) (values : List Float) : Bool → Battle → Prop
  | false, c => Rolled b c
  | true, c =>
    if e.stacking = .refresh ∧ x.hasStatus status = true then
      Prolonged b status x target duration c ∧
        ∀ resolver, inflict resolver target status source duration values b = .ok true c
    else Afflicted b e x target source duration values c

theorem applied_adding (there : b.combatant? target = some x) (quiet : e.Quiet)
    (fresh : ¬(e.stacking = .refresh ∧ x.hasStatus status = true)) (hc : Rolled b c) :
    AllOrNothing b (Applied b e x target status source duration values)
      ((addStatus b.below e target source duration values >>= fun _ => pure true) c) :=
  .bind (afflicted_addStatus there quiet hc) fun _ _ h => (if_neg fresh).mpr h

theorem applied_inflict (known : b.effects.get? status = some e)
    (there : b.combatant? target = some x) (quiet : e.Quiet) :
    AllOrNothing b (Applied b e x target status source duration values)
      (inflict b.below target status source duration values b) := by
  by_cases kind : e.stacking = .independent
  · have fresh : ¬(e.stacking = .refresh ∧ x.hasStatus status = true) := by simp [kind]
    rw [inflict_independent known there kind]
    refine .bind (allOrNothing_of_rolls (rolls_mayStack quiet _) (refl_of Rolled b))
      fun room c hc => ?_
    cases room with
    | true => exact applied_adding there quiet fresh hc
    | false => exact hc
  · cases has : x.hasStatus status with
    | false =>
      rw [inflict_new known there kind has]
      exact applied_adding there quiet (by simp [has]) (refl_of Rolled b)
    | true =>
      cases h : e.stacking with
      | independent => exact absurd h kind
      | none =>
        rw [inflict_none known there h has]
        exact refl_of Rolled b
      | refresh =>
        rw [inflict_refresh known there h has]
        exact (if_pos ⟨h, has⟩).mpr
          ⟨prolonged_prolong there has, fun _ => inflict_refresh known there h has⟩

end Applications

/-- **An application is all or nothing.** Where the formulas of a status act on no battle, an
application of the status, at whatever depth,

1. puts off the first instance of a status that refreshes and is there: only the end of that instance
   changes, and that to the same effect however formulas are evaluated;
2. or adds one instance after all others, with the next id and without a latest tick;
3. or comes to nothing or fails, and changes nothing.

Nothing else is changed but the dice. -/
theorem application_all_or_nothing (b : Battle) (target status source : String) (duration : Float)
    (values : List Float) (quiet : ∀ e, b.effects.get? status = some e → e.Quiet) :
    AllOrNothing b
      (fun added c => ∃ e x, b.effects.get? status = some e ∧ b.combatant? target = some x ∧
        b.Applied e x target status source duration values added c)
      (applyStatus target status source duration values b) := by
  refine allOrNothing_require fun x there => allOrNothing_act ?_
  cases known : b.effects.get? status with
  | none =>
    rw [inflict_of_unknown known]
    exact refl_of Rolled b
  | some e =>
    exact (applied_inflict known there (quiet e known)).mono fun _ _ h => ⟨e, x, rfl, there, h⟩

/-- A stun that refreshes: it is added once, and then put off. -/
theorem application_all_or_nothing_stun :
    let stun : StatusEffect := ⟨"stun", .refresh, none, .leaf (.key "$0"), []⟩
    let b := run (new .standard) [.add "h" "H" .player, .addEffect stun]
    let c := run b [.move (.apply "h" "stun" "h" 1 [2]), .move (.advance 500)]
    (gives true (applyStatus "h" "stun" "h" 1 [2] b) = true ∧
        gives true (applyStatus "h" "stun" "h" 1 [2] c) = true) ∧
      (∀ e, b.effects.get? "stun" = some e → e.Quiet) ∧
      (∀ e, c.effects.get? "stun" = some e → e.Quiet) ∧
      AllOrNothing b
        (fun added d => ∃ e x, b.effects.get? "stun" = some e ∧ b.combatant? "h" = some x ∧
          b.Applied e x "h" "stun" "h" 1 [2] added d)
        (applyStatus "h" "stun" "h" 1 [2] b) ∧
      AllOrNothing c
        (fun added d => ∃ e x, c.effects.get? "stun" = some e ∧ c.combatant? "h" = some x ∧
          c.Applied e x "h" "stun" "h" 1 [2] added d)
        (applyStatus "h" "stun" "h" 1 [2] c) := by
  intro stun b c
  have hstun : stun.Quiet := ⟨nofun, fun f hf => absurd hf List.not_mem_nil⟩
  have hb : ∀ e, b.effects.get? "stun" = some e → e.Quiet :=
    fun e known => Option.some.inj known ▸ hstun
  have hc : ∀ e, c.effects.get? "stun" = some e → e.Quiet :=
    fun e known => Option.some.inj known ▸ hstun
  exact ⟨by decide +kernel, hb, hc, application_all_or_nothing b "h" "stun" "h" 1 [2] hb,
    application_all_or_nothing c "h" "stun" "h" 1 [2] hc⟩

end Skirmish.Battle
