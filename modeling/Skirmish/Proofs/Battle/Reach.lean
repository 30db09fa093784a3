import Skirmish.Proofs.Battle.Application
import Skirmish.Proofs.Battle.Frame

/-!
# Formulas and the evolution of a battle

What a formula does to a battle, and what the damage, the skills and the statuses that it sets off
do, is an evolution of the battle in the sense of `Evolves`.

1. `evolves_resolve`: evaluating an expression. One induction on the levels left carries all of
   it: the world with `n + 1` levels evaluates formulas in the world with `n`.
2. `evolves_damage`, `evolves_useSkill`, `evolves_inflict`: what is done to a battle from outside.
3. With `Evolves.frame`, an expression leaves a battle in its frame.
-/

namespace Skirmish.Battle

open Skirmish.Formula

/-- The state after an action that is run one level deeper. -/
theorem after_deeper {α : Type} (act : Action Battle α) (b : Battle) :
    after (deeper act) b =
      if b.settings.reentryLimit ≤ b.depth then b
      else
        { after act { b with depth := b.depth + 1 } with
          depth := (after act { b with depth := b.depth + 1 }).depth - 1 } := by
  unfold after deeper
  by_cases hd : b.settings.reentryLimit ≤ b.depth
  · rw [if_pos hd, if_pos hd]
  · rw [if_neg hd, if_neg hd]
    cases act { b with depth := b.depth + 1 } <;> rfl

/-! ## What formulas keep

A relation between battles that is kept by formulas and, where something is decided by chance, by
rolls. -/

section Kept

variable {R : Battle → Battle → Prop} [IsPreorder Battle R] {α : Type}

theorem keeps_lift_battle (x : Except EvalError α) : Keeps R (lift x) := by
  cases x with
  | ok a => exact keeps_pure a
  | error e => exact keeps_throw e

theorem keeps_discard {act : Action Battle α} (h : Keeps R act) : Keeps R (discard act) :=
  keeps_bind h fun _ => keeps_pure _

section Resolver

variable {resolver : Resolver} {e : Expr} {source target : String}
  (hr : ∀ e, Keeps R (resolver e))

include hr

omit [IsPreorder Battle R] in
theorem keeps_resolveSkill : Keeps R (resolveSkill resolver e source target) := fun b => hr _ b

omit [IsPreorder Battle R] in
theorem keeps_resolveMitigation {amount : Float} :
    Keeps R (resolveMitigation resolver e target source amount) := fun b => hr _ b

theorem keeps_resolveStatus {values : List Float} :
    Keeps R (resolveStatus resolver e source target values) :=
  keeps_bind (keeps_lift_battle _) fun _ => hr _

end Resolver

section Formulas

variable {resolver : Resolver} {d : DamageType} {source target : String}
  (hroll : ∀ upper b, R b (b.roll upper).2)

include hroll

omit [IsPreorder Battle R] in
theorem keeps_rollChance (percent : Float) : Keeps R (rollChance percent) :=
  fun b => hroll 1000 b

theorem keeps_isDodged
    (hdodge : ∀ e ∈ d.dodge, Keeps R (resolveSkill resolver e source target)) :
    Keeps R (isDodged resolver d source target) := by
  unfold isDodged
  cases he : d.dodge with
  | none => exact keeps_pure _
  | some e =>
    refine keeps_bind keeps_get fun b => ?_
    split
    · exact keeps_bind (hdodge e he) fun _ =>
        keeps_bind (keeps_lift_battle _) fun _ => keeps_rollChance hroll _
    · exact keeps_pure _

theorem keeps_isCritical
    (hchance : ∀ e ∈ d.critChance, Keeps R (resolveSkill resolver e source target)) :
    Keeps R (isCritical resolver d source target) := by
  unfold isCritical
  cases he : d.critChance with
  | none => exact keeps_pure _
  | some e =>
    refine keeps_bind keeps_get fun b => ?_
    split
    · exact keeps_bind (hchance e he) fun _ =>
        keeps_bind (keeps_lift_battle _) fun _ => keeps_rollChance hroll _
    · exact keeps_pure _

omit hroll in
theorem keeps_multiplier {critical : Bool}
    (hmodifier : ∀ e ∈ d.critModifier, Keeps R (resolveSkill resolver e source target)) :
    Keeps R (multiplier resolver d critical source target) := by
  unfold multiplier
  cases he : d.critModifier with
  | none => exact keeps_pure _
  | some e =>
    dsimp only
    split
    · exact keeps_bind (hmodifier e he) fun _ => keeps_lift_battle _
    · exact keeps_pure _

theorem keeps_outcome {raw : Float}
    (hchance : ∀ e ∈ d.critChance, Keeps R (resolveSkill resolver e source target))
    (hmodifier : ∀ e ∈ d.critModifier, Keeps R (resolveSkill resolver e source target))
    (hmitigation : ∀ e ∈ d.mitigation, ∀ amount,
      Keeps R (resolveMitigation resolver e target source amount)) :
    Keeps R (outcome resolver d raw source target) := by
  unfold outcome
  refine keeps_bind (keeps_isCritical hroll hchance) fun critical =>
    keeps_bind (keeps_multiplier hmodifier) fun factor => ?_
  cases he : d.mitigation with
  | none => exact keeps_bind (keeps_pure _) fun _ => keeps_pure _
  | some e =>
    exact keeps_bind (hmitigation e he _) fun _ =>
      keeps_bind (keeps_lift_battle _) fun _ => keeps_pure _

end Formulas

end Kept

/-! ## Levels -/

/-- An evolution of the battles with `n` levels left. -/
def At (silent : Bool) (n : Nat) (b c : Battle) : Prop := b.levels = n → Evolves silent b c

section Levels

variable {silent : Bool} {n : Nat} {α : Type}

instance : IsPreorder Battle (At silent n) where
  refl b _ := .refl b
  trans _ _ _ h k hn := (h hn).trans (k ((h hn).frame.levels_eq.trans hn))

theorem at_roll (upper : UInt32) (b : Battle) : At silent n b (b.roll upper).2 :=
  fun _ => .roll b upper

/-- One level deeper there is a level less. -/
theorem keeps_deeper {act : Action Battle α} (h : ∀ m, m + 1 = n → Keeps (At silent m) act) :
    Keeps (At silent n) (deeper act) := by
  intro b hn
  rw [after_deeper]
  split
  · exact .refl b
  · unfold levels at hn
    refine .nested (by omega) (h (n - 1) (by omega) _ ?_)
    show b.settings.reentryLimit - (b.depth + 1) = n - 1
    omega

end Levels

/-! ## Damage and skills -/

section Setting

variable {silent : Bool} {n : Nat} {resolver : Resolver}

theorem keeps_recordDodge {target source type : String} :
    Keeps (At silent n)
      (modify fun b => b.record (.dodge target source type) : Action Battle Unit) := by
  intro b _
  exact .event (e := .dodge target source type) true nofun (.inl rfl)

theorem keeps_land {d : DamageType} {target source : String} {logged : Bool}
    (told : logged = true ∨ silent = true) {o : Outcome} :
    Keeps (At silent n) (land d target source logged o) := by
  intro b _
  unfold after land
  by_cases ht : b.contains target = true
  · rw [if_pos ht]
    refine .event (e := .damage target source d.key o) logged ?_ told
    rintro t delta h
    cases h
    exact ht
  · rw [if_neg ht]
    exact .refl b

theorem keeps_restore (target : String) (amount : Float) (source : String) {logged : Bool}
    (told : logged = true ∨ silent = true) :
    ∀ b, At silent n b (b.restore target amount source logged) := by
  intro b _
  unfold restore
  by_cases ht : b.contains target = true
  · rw [if_pos ht]
    refine .event (e := .heal target source amount) logged ?_ told
    rintro t delta h
    cases h
    exact ht
  · rw [if_neg ht]
    exact .refl b

variable (hr : ∀ m, m + 1 = n → ∀ e, Keeps (At silent m) (resolver e))

include hr

theorem keeps_damage {target : String} {amount : Float} {type source : String} {logged : Bool}
    (told : logged = true ∨ silent = true) :
    Keeps (At silent n) (damage resolver target amount type source logged) := by
  unfold damage
  refine keeps_bind keeps_get fun b => ?_
  cases b.damageTypes.get? type with
  | none => exact keeps_throw _
  | some d =>
    refine keeps_bind keeps_get fun c => ?_
    split
    · exact keeps_pure _
    · refine keeps_deeper fun m hm =>
        keeps_bind (keeps_isDodged at_roll fun _ _ => keeps_resolveSkill (hr m hm)) fun dodged => ?_
      cases dodged with
      | true =>
        cases logged with
        | true => exact keeps_bind keeps_recordDodge fun _ => keeps_pure _
        | false => exact keeps_pure _
      | false =>
        exact keeps_bind (keeps_outcome at_roll (fun _ _ => keeps_resolveSkill (hr m hm))
          (fun _ _ => keeps_resolveSkill (hr m hm))
          fun _ _ _ => keeps_resolveMitigation (hr m hm)) fun o => keeps_land told

theorem keeps_useSkill {caster target skill : String} :
    Keeps (At silent n) (useSkill resolver caster target skill) := by
  unfold useSkill
  refine keeps_bind keeps_get fun b => ?_
  cases b.skills.get? skill with
  | none => exact keeps_throw _
  | some s => exact keeps_deeper fun m hm => keeps_resolveSkill (hr m hm)

end Setting

/-! ## Statuses -/

section Statuses

variable {silent : Bool} {n : Nat} {resolver : Resolver} {b c : Battle} {e : StatusEffect}
  {target source status : String} {duration : Float} {values : List Float}
  (hr : ∀ m, m + 1 = b.levels → ∀ e, Keeps (At silent m) (resolver e))
  (hb : 0 < b.levels → resolver = b.below)

include hr in
theorem evolves_interval {v : Value}
    (hv : deeper (resolveStatus resolver e.interval source target values) b = .ok v c) :
    Evolves silent b c :=
  (keeps_deeper fun m hm => keeps_resolveStatus (hr m hm)).of_ok hv rfl

include hr hb in
theorem evolves_addStatus {x : Combatant} (known : b.effects.get? status = some e)
    (there : b.combatant? target = some x)
    (room : ∀ k, e.limit? = some k → x.statusCount status < k) :
    Evolves silent b (after (addStatus resolver e target source duration values) b) := by
  cases hv : deeper (resolveStatus resolver e.interval source target values) b with
  | error err c =>
    unfold addStatus
    rw [after_bind_of_error hv]
    exact (keeps_deeper fun m hm => keeps_resolveStatus (hr m hm)).of_error hv rfl
  | ok v c =>
    have hc := evolves_interval hr hv
    cases hs : v.asNumber with
    | error err =>
      rw [after_of_error (addStatus_of_not_number hv hs)]
      exact hc
    | ok seconds =>
      have ht : c.contains target = true := by
        rw [hc.frame.contains_eq]
        exact contains_of_combatant? there
      rw [after_of_ok (addStatus_of_number hv hs ht)]
      refine .inflict source duration values _ known there
        (fun k hk => ⟨room k hk, v, seconds, ?_, hs⟩) hc
      obtain ⟨hd, -⟩ := deeper_eq_ok hv
      rw [← hb (by unfold levels; omega)]
      exact hv

include hr in
theorem keeps_mayStack {count : Nat} :
    Keeps (At silent b.levels) (mayStack resolver e target source values count) := by
  unfold mayStack
  cases e.maxStacks with
  | none => exact keeps_pure _
  | some limit =>
    exact keeps_bind (keeps_deeper fun m hm => keeps_resolveStatus (hr m hm)) fun _ =>
      keeps_bind (keeps_lift_battle _) fun _ => keeps_pure _

include hr hb

/-- Adding an instance where there is room for it. -/
theorem evolves_adding {x : Combatant} (known : b.effects.get? status = some e)
    (there : b.combatant? target = some x) (kind : e.stacking = .independent) :
    Evolves silent b (after (mayStack resolver e target source values (x.statusCount status) >>=
      fun room => if room then
        addStatus resolver e target source duration values >>= fun _ => pure true
      else pure false : Action Battle Bool) b) := by
  cases hm : mayStack resolver e target source values (x.statusCount status) b with
  | error err c =>
    rw [after_bind_of_error hm]
    exact (keeps_mayStack hr).of_error hm rfl
  | ok room c =>
    have hc : Evolves silent b c := (keeps_mayStack hr).of_ok hm rfl
    rw [after_bind_of_ok hm]
    cases room with
    | false => exact hc
    | true =>
      rw [if_pos rfl, after_bind_pure]
      -- The target is still there, but with a limit that varies more may have happened to it.
      obtain ⟨y, hy, hroom⟩ : ∃ y, c.combatant? target = some y ∧
          ∀ k, e.limit? = some k → y.statusCount status < k := by
        cases hk : e.limit? with
        | none =>
          obtain ⟨y, hy, -⟩ := hc.frame.exists_of_some there
          exact ⟨y, hy, nofun⟩
        | some k =>
          obtain ⟨rfl, hlt⟩ := room_of_mayStack hb kind hk hm
          refine ⟨x, there, fun m hm => ?_⟩
          obtain rfl : k = m := Option.some.inj hm
          exact hlt
      refine hc.trans (evolves_addStatus ?_ ?_ ?_ hy hroom)
      · rw [hc.frame.levels_eq]; exact hr
      · rw [hc.frame.levels_eq, hc.frame.below_eq]; exact hb
      · rw [hc.frame.effects]; exact known

/-- Statuses, with any way to evaluate formulas that evolves battles one level deeper. -/
theorem evolves_inflict_of :
    Evolves silent b (after (inflict resolver target status source duration values) b) := by
  cases known : b.effects.get? status with
  | none => rw [after_of_error (inflict_of_unknown known)]; exact .refl b
  | some e =>
    cases there : b.combatant? target with
    | none => rw [after_of_error (inflict_of_absent known there)]; exact .refl b
    | some x =>
      by_cases kind : e.stacking = .independent
      · rw [after_congr (inflict_independent known there kind)]
        exact evolves_adding hr hb known there kind
      · cases has : x.hasStatus status with
        | false =>
          rw [after_congr (inflict_new known there kind has), after_bind_pure]
          refine evolves_addStatus hr hb known there fun k hk => ?_
          rw [limit?_of_single kind] at hk
          cases hk
          rw [Combatant.statusCount_eq_zero_iff.2 has]
          exact Nat.one_pos
        | true =>
          cases h : e.stacking with
          | refresh =>
            rw [after_of_ok (inflict_refresh known there h has)]
            exact .refresh duration known h there has
          | none => rw [after_of_ok (inflict_none known there h has)]; exact .refl b
          | independent => exact absurd h kind

end Statuses

/-! ## Expressions -/

section Worlds

variable {silent : Bool}

/-- The actions of a world keep to evolutions when the formulas that they set off do. -/
theorem keeps_worldWith {n : Nat} {resolver : Resolver}
    (hr : ∀ m, m + 1 = n → ∀ e, Keeps (At silent m) (resolver e))
    (hb : ∀ b : Battle, b.levels = n → 0 < n → resolver = b.below) :
    (worldWith resolver).Keeps (At silent n) where
  harm target source type amount := keeps_discard (keeps_damage hr (.inl rfl))
  heal target source amount := fun b => keeps_restore target amount source (.inl rfl) b
  cast caster target skill := keeps_discard (keeps_useSkill hr)
  inflict target source status duration values := by
    refine keeps_discard fun b hn => ?_
    subst hn
    exact evolves_inflict_of hr (hb b rfl)
  roll := at_roll

/-- With as many levels as are left, what the world does is an evolution. -/
theorem keeps_world (n : Nat) : (world n).Keeps (At silent n) := by
  induction n with
  | zero =>
    refine keeps_worldWith (fun m hm => ?_) fun b _ h => ?_
    · exact absurd hm (Nat.succ_ne_zero m)
    · exact absurd h (Nat.lt_irrefl 0)
  | succ n ih =>
    refine keeps_worldWith (fun m hm => ?_) fun b hn _ => ?_
    · obtain rfl : m = n := by omega
      exact keeps_resolve ih
    · unfold below
      rw [hn]
      rfl

/-- **Evaluation.** In the world with as many levels as are left, evaluating an expression is an
evolution. -/
theorem keeps_resolve_world (n : Nat) (e : Expr) :
    Keeps (At silent n) (e.resolve (world n)) :=
  keeps_resolve (keeps_world n) e

end Worlds

section Present

variable (b : Battle)

theorem evolves_resolve (e : Expr) : Evolves false b (after (b.here e) b) :=
  keeps_resolve_world b.levels e b rfl

theorem keeps_below (silent : Bool) (m : Nat) (hm : m + 1 = b.levels) (e : Expr) :
    Keeps (At silent m) (b.below e) := by
  have h : b.levels - 1 = m := by omega
  unfold below
  rw [h]
  exact keeps_resolve_world m e

theorem evolves_damage {silent : Bool} (target : String) (amount : Float) (type source : String)
    {logged : Bool} (told : logged = true ∨ silent = true) :
    Evolves silent b (after (damage b.below target amount type source logged) b) :=
  keeps_damage (keeps_below b silent) told b rfl

theorem evolves_restore {silent : Bool} (target : String) (amount : Float) (source : String)
    {logged : Bool} (told : logged = true ∨ silent = true) :
    Evolves silent b (b.restore target amount source logged) :=
  keeps_restore target amount source told b rfl

theorem evolves_useSkill (caster target skill : String) :
    Evolves false b (after (useSkill b.below caster target skill) b) :=
  keeps_useSkill (keeps_below b false) b rfl

theorem evolves_inflict (target status source : String) (duration : Float)
    (values : List Float) :
    Evolves false b (after (inflict b.below target status source duration values) b) :=
  evolves_inflict_of (keeps_below b false) fun _ => rfl

/-- **The frame of an evaluation.** Whatever an expression sets off, and whether it succeeds or
fails, it leaves the settings, the definitions, the clock and the depth alone, adds only to the end
of the log, adds and removes no combatant, and changes no combatant but in the persistent change of
its hit points and in its statuses: of these it removes none, renames none and moves the end of
none but a refreshed one. -/
theorem frame_resolve (e : Expr) : Frame b (after (b.here e) b) :=
  (evolves_resolve b e).frame

end Present

end Skirmish.Battle
