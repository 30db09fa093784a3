import Skirmish.Battle.Effect
import Skirmish.Proofs.Formula.Simulation

/-!
# Coupled battles

What formulas do to two battles is the same as long as they see the same of both. `Coupling` says
what they see and what they change; `L` and `L'` are the limits of the two battles. Where these
differ, a formula of the first battle may be refused at its limit, which has to be excused.

1. Damage, skills and statuses of the second battle follow those of the first when the formulas one
   level deeper do.
2. So do expressions, by induction on the levels (`follows_world`).
-/

namespace Skirmish.Battle

open Skirmish.Formula

/-! ## The formulas of a battle -/

/-- `p` holds of the functions in the formulas of a damage type. -/
def DamageType.FormulasOver (p : Function → Prop) (t : DamageType) : Prop :=
  ∀ formula ∈ [t.mitigation, t.dodge, t.critChance, t.critModifier],
    ∀ e ∈ formula, ∀ f ∈ e.functions, p f

/-- `p` holds of the functions that bindings put in and of those in the formulas by which damage is
dealt, skills are cast and statuses are applied. -/
structure FormulasOver (p : Function → Prop) (b : Battle) : Prop where
  vocabulary : ∀ f ∈ b.vocabulary.functions, p f
  damageTypes : ∀ key t, b.damageTypes.get? key = some t → t.FormulasOver p
  skills : ∀ key s, b.skills.get? key = some s → ∀ f ∈ s.formula.functions, p f
  intervals : ∀ key e, b.effects.get? key = some e → ∀ f ∈ e.interval.functions, p f
  maxStacks : ∀ key e, b.effects.get? key = some e →
    ∀ limit ∈ e.maxStacks, ∀ f ∈ limit.functions, p f

section Formulas

variable {p q : Function → Prop}

theorem DamageType.formulasOver_of_forall (t : DamageType) (h : ∀ f, p f) : t.FormulasOver p :=
  fun _ _ _ _ f _ => h f

theorem formulasOver_of_forall {b : Battle} (h : ∀ f, p f) : b.FormulasOver p where
  vocabulary f _ := h f
  damageTypes _ t _ := t.formulasOver_of_forall h
  skills _ _ _ f _ := h f
  intervals _ _ _ f _ := h f
  maxStacks _ _ _ _ _ f _ := h f

theorem DamageType.FormulasOver.mono {t : DamageType} (ht : t.FormulasOver p)
    (h : ∀ f, p f → q f) : t.FormulasOver q :=
  fun formula hmem e he f hf => h f (ht formula hmem e he f hf)

theorem FormulasOver.mono {b : Battle} (hb : b.FormulasOver p) (h : ∀ f, p f → q f) :
    b.FormulasOver q where
  vocabulary f hf := h f (hb.vocabulary f hf)
  damageTypes key t ht := (hb.damageTypes key t ht).mono h
  skills key s hs f hf := h f (hb.skills key s hs f hf)
  intervals key e he f hf := h f (hb.intervals key e he f hf)
  maxStacks key e he limit hl f hf := h f (hb.maxStacks key e he limit hl f hf)

end Formulas

/-! ## Couplings -/

/-- Pairs of battles at each depth of which damage and skills see the same. What they do to both
keeps the battles paired. -/
structure Coupling (E : EvalError → Prop) (L L' : Nat) (R : Nat → Battle → Battle → Prop) :
    Prop where
  limits : L = L' ∨ L ≤ L' ∧ E (.recursionLimit L)
  /-- The battles differ at most in their settings and combatants. -/
  eq : ∀ {d b c}, R d b c → c = { b with settings := c.settings, combatants := c.combatants }
  limit : ∀ {d b c}, R d b c → b.settings.reentryLimit = L
  limit' : ∀ {d b c}, R d b c → c.settings.reentryLimit = L'
  depth : ∀ {d b c}, R d b c → b.depth = d
  steady : ∀ {d b c}, R d b c → b.FormulasOver (Function.Steady E)
  contains : ∀ {d b c}, R d b c → b.contains = c.contains
  hasStat : ∀ {d b c}, R d b c → b.hasStat = c.hasStat
  stat : ∀ {d b c}, R d b c → b.statOrFault = c.statOrFault
  players : ∀ {d b c}, R d b c → b.players = c.players
  activePlayers : ∀ {d b c}, R d b c → b.activePlayers = c.activePlayers
  /-- The log, the dice, the next id and the depth change alike. -/
  other : ∀ {d b c}, R d b c → ∀ n log dice nextStatusId,
    R n { b with log, dice, nextStatusId, depth := n } { c with log, dice, nextStatusId, depth := n }
  hit : ∀ {d b c}, R d b c → ∀ key delta,
    R d (b.alter key (·.adjustPersistent b.settings.hpStat delta))
      (c.alter key (·.adjustPersistent c.settings.hpStat delta))

namespace Coupling

variable {E : EvalError → Prop} {L L' : Nat} {R : Nat → Battle → Battle → Prop}
  (C : Coupling E L L' R) {d : Nat} {b c : Battle}

include C

/-- The second battle is the first one with other settings and combatants. -/
theorem exists_eq (h : R d b c) :
    ∃ settings combatants, c = { b with settings, combatants } ∧ b.depth = d :=
  ⟨_, _, C.eq h, C.depth h⟩

theorem depth' (h : R d b c) : c.depth = d := by
  obtain ⟨settings, combatants, rfl, hdepth⟩ := C.exists_eq h
  exact hdepth

theorem roll (h : R d b c) (upper : UInt32) :
    (b.roll upper).1 = (c.roll upper).1 ∧ R d (b.roll upper).2 (c.roll upper).2 := by
  obtain ⟨settings, combatants, rfl, rfl⟩ := C.exists_eq h
  exact ⟨rfl, C.other h b.depth b.log (b.dice.below upper).2 b.nextStatusId⟩

theorem record (h : R d b c) (e : Event) : R d (b.record e) (c.record e) := by
  obtain ⟨settings, combatants, rfl, rfl⟩ := C.exists_eq h
  exact C.other h b.depth (b.log.record e) b.dice b.nextStatusId

theorem atDepth (h : R d b c) (n : Nat) : R n { b with depth := n } { c with depth := n } := by
  obtain ⟨settings, combatants, rfl, rfl⟩ := C.exists_eq h
  exact C.other h n b.log b.dice b.nextStatusId

theorem countStatus (h : R d b c) :
    R d { b with nextStatusId := b.nextStatusId + 1 }
      { c with nextStatusId := c.nextStatusId + 1 } := by
  obtain ⟨settings, combatants, rfl, rfl⟩ := C.exists_eq h
  exact C.other h b.depth b.log b.dice (b.nextStatusId + 1)

theorem restore (h : R d b c) (target : String) (amount : Float) (source : String)
    (logged : Bool) :
    R d (b.restore target amount source logged) (c.restore target amount source logged) := by
  unfold Battle.restore
  rw [C.contains h]
  have hit := C.hit h target amount
  split
  · cases logged with
    | true => exact C.record hit _
    | false => exact hit
  · exact h

/-! ## Actions -/

omit C in
theorem follows_lift_battle {α : Type} {P : Battle → Battle → Prop} (x : Except EvalError α) :
    Follows E Eq P (lift x) (lift x) := by
  cases x with
  | ok a => exact follows_pure rfl
  | error e => exact follows_throw e

theorem follows_rollChance (percent : Float) :
    Follows E Eq (R d) (rollChance percent) (rollChance percent) := by
  intro b c h
  unfold rollChance
  obtain ⟨hroll, hbattle⟩ := C.roll h 1000
  exact .inr (.ok (congrArg (rollSucceeds · percent) hroll) hbattle)

/-- The first battle refuses at its limit. Otherwise both go deeper, by one level. -/
theorem follows_deeper {α : Type} {act act' : Action Battle α}
    (hact : d < L → Follows E Eq (R (d + 1)) act act') :
    Follows E Eq (R d) (deeper act) (deeper act') := by
  intro b c h
  unfold deeper
  rw [C.limit h, C.limit' h, C.depth h, C.depth' h]
  by_cases hd : L ≤ d
  · rw [if_pos hd]
    rcases C.limits with rfl | ⟨-, hexcused⟩
    · rw [if_pos hd]
      exact .inr (.error _ h)
    · exact .inl ⟨_, b, rfl, hexcused⟩
  · have hd' : ¬L' ≤ d := by
      rcases C.limits with rfl | ⟨hle, -⟩ <;> omega
    rw [if_neg hd, if_neg hd']
    have hout {s t : Battle} (hst : R (d + 1) s t) :
        R d { s with depth := s.depth - 1 } { t with depth := t.depth - 1 } := by
      rw [C.depth hst, C.depth' hst]
      exact C.atDepth hst d
    obtain ⟨e, s, hb, he⟩ | ⟨x, y, s, t, hb, hc, value, state⟩ | ⟨e, s, t, hb, hc, state⟩ :=
      (hact (Nat.lt_of_not_le hd)).ends (C.atDepth h (d + 1))
    · rw [hb]
      exact .inl ⟨e, _, rfl, he⟩
    · rw [hb, hc]
      exact .inr (.ok value (hout state))
    · rw [hb, hc]
      exact .inr (.error e (hout state))

/-! ### Formulas -/

section Formulas

variable {r r' : Resolver}
  (hr : ∀ e : Expr, e.Steady E → Follows E Eq (R d) (r e) (r' e))

include hr

theorem follows_resolveSkill {e : Expr} (he : e.Steady E)
    (source target : String) :
    Follows E Eq (R d) (resolveSkill r e source target) (resolveSkill r' e source target) := by
  intro b c h
  have hvocabulary : c.vocabulary = b.vocabulary := by rw [C.eq h]
  unfold resolveSkill
  rw [hvocabulary, C.hasStat h]
  exact hr _ (Expr.forall_functions_bindSkill (C.steady h).vocabulary _ source target he) b c h

theorem follows_resolveMitigation {e : Expr} (he : e.Steady E)
    (target source : String) (amount : Float) :
    Follows E Eq (R d) (resolveMitigation r e target source amount)
      (resolveMitigation r' e target source amount) := by
  intro b c h
  have hvocabulary : c.vocabulary = b.vocabulary := by rw [C.eq h]
  unfold resolveMitigation
  rw [hvocabulary, C.hasStat h]
  exact hr _ (Expr.forall_functions_bindMitigation (C.steady h).vocabulary _ target source amount he)
    b c h

omit C in
theorem follows_resolveStatus {e : Expr} (he : e.Steady E)
    (source target : String) (values : List Float) :
    Follows E Eq (R d) (resolveStatus r e source target values)
      (resolveStatus r' e source target values) := by
  unfold resolveStatus
  cases h : e.bindStatus source target values with
  | error err => exact follows_throw err
  | ok x => exact hr x (Expr.forall_functions_bindStatus h he)

theorem follows_isCritical {t : DamageType} (ht : t.FormulasOver (Function.Steady E))
    (source target : String) :
    Follows E Eq (R d) (isCritical r t source target) (isCritical r' t source target) := by
  unfold isCritical
  cases hchance : t.critChance with
  | none => exact follows_pure rfl
  | some e =>
    have he : e.Steady E := ht t.critChance (by simp) e hchance
    refine follows_get_bind fun b c h => ?_
    rw [C.contains h]
    split
    · refine follows_bind_eq (C.follows_resolveSkill hr he source target) (fun v => ?_) b c h
      exact follows_bind_eq (follows_lift_battle _) fun _ => C.follows_rollChance _
    · exact .inr (.ok rfl h)

/-- To dodge is rolled for as a critical hit is. -/
theorem follows_isDodged {t : DamageType} (ht : t.FormulasOver (Function.Steady E))
    (source target : String) :
    Follows E Eq (R d) (isDodged r t source target) (isDodged r' t source target) := by
  have hdodge : DamageType.FormulasOver (Function.Steady E) { t with critChance := t.dodge } :=
    fun formula hmem => ht formula (by simp at hmem ⊢; tauto)
  exact C.follows_isCritical hr hdodge source target

theorem follows_multiplier {t : DamageType} (ht : t.FormulasOver (Function.Steady E))
    (critical : Bool) (source target : String) :
    Follows E Eq (R d) (multiplier r t critical source target)
      (multiplier r' t critical source target) := by
  unfold multiplier
  cases hmodifier : t.critModifier with
  | none => exact follows_pure rfl
  | some e =>
    have he : e.Steady E := ht t.critModifier (by simp) e hmodifier
    dsimp only
    split
    · exact follows_bind_eq (C.follows_resolveSkill hr he source target) fun _ =>
        follows_lift_battle _
    · exact follows_pure rfl

theorem follows_outcome {t : DamageType} (ht : t.FormulasOver (Function.Steady E)) (raw : Float)
    (source target : String) :
    Follows E Eq (R d) (outcome r t raw source target) (outcome r' t raw source target) := by
  unfold outcome
  refine follows_bind_eq (C.follows_isCritical hr ht source target) fun critical =>
    follows_bind_eq (C.follows_multiplier hr ht critical source target) fun factor => ?_
  cases hmitigation : t.mitigation with
  | none => exact follows_bind_eq (follows_pure rfl) fun _ => follows_pure rfl
  | some e =>
    have he : e.Steady E := ht t.mitigation (by simp) e hmitigation
    exact follows_bind_eq (C.follows_resolveMitigation hr he target source _) fun _ =>
      follows_bind_eq (follows_lift_battle _) fun _ => follows_pure rfl

end Formulas

theorem follows_land (t : DamageType) (target source : String) (logged : Bool) (o : Outcome) :
    Follows E Eq (R d) (land t target source logged o) (land t target source logged o) := by
  intro b c h
  unfold land
  rw [C.contains h]
  have hit := C.hit h target (-o.amount)
  split
  · cases logged with
    | true => exact .inr (.ok rfl (C.record hit _))
    | false => exact .inr (.ok rfl hit)
  · exact .inr (.ok rfl h)

/-! ### Damage, skills and statuses -/

section Deeper

variable {r r' : Resolver}
  (hr : d < L → ∀ e : Expr, e.Steady E → Follows E Eq (R (d + 1)) (r e) (r' e))

include hr

theorem follows_damage (target : String) (amount : Float) (type source : String) (logged : Bool) :
    Follows E Eq (R d) (damage r target amount type source logged)
      (damage r' target amount type source logged) := by
  unfold damage
  refine follows_get_bind fun b c h => ?_
  have hdamageTypes : c.damageTypes = b.damageTypes := by rw [C.eq h]
  rw [hdamageTypes]
  cases htype : b.damageTypes.get? type with
  | none => exact .inr (.error _ h)
  | some t =>
    have ht := (C.steady h).damageTypes type t htype
    refine follows_get_bind (fun b c h => ?_) b c h
    rw [C.contains h]
    split
    · exact .inr (.ok rfl h)
    · refine C.follows_deeper (fun hd => ?_) b c h
      refine follows_bind_eq (C.follows_isDodged (hr hd) ht source target) fun dodged => ?_
      cases dodged with
      | true =>
        cases logged with
        | true =>
          exact follows_bind_eq (follows_modify fun _ _ h => C.record h _) fun _ =>
            follows_pure rfl
        | false => exact follows_pure rfl
      | false =>
        exact follows_bind_eq (C.follows_outcome (hr hd) ht amount source target) fun o =>
          C.follows_land t target source logged o

theorem follows_useSkill (caster target skill : String) :
    Follows E Eq (R d) (useSkill r caster target skill) (useSkill r' caster target skill) := by
  unfold useSkill
  refine follows_get_bind fun b c h => ?_
  have hskills : c.skills = b.skills := by rw [C.eq h]
  rw [hskills]
  cases hskill : b.skills.get? skill with
  | none => exact .inr (.error _ h)
  | some s =>
    have hs := (C.steady h).skills skill s hskill
    exact C.follows_deeper (fun hd => C.follows_resolveSkill (hr hd) hs _ _) b c h

theorem follows_mayStack {e : StatusEffect}
    (he : ∀ limit ∈ e.maxStacks, limit.Steady E) (target source : String)
    (values : List Float) (count : Nat) :
    Follows E Eq (R d) (mayStack r e target source values count)
      (mayStack r' e target source values count) := by
  unfold mayStack
  cases hlimit : e.maxStacks with
  | none => exact follows_pure rfl
  | some limit =>
    have heval := C.follows_deeper fun hd =>
      follows_resolveStatus (hr hd) (he limit hlimit) source target values
    exact follows_bind_eq heval fun _ =>
      follows_bind_eq (follows_lift_battle _) fun _ => follows_pure rfl

/-- The battles have to stay paired when the instance is added to both. -/
theorem follows_addStatus {e : StatusEffect} (he : e.interval.Steady E) {target source : String}
    {duration : Float} {values : List Float}
    (append : ∀ {b c}, R d b c → ∀ s : ActiveStatus, s.removal = removalTime b.now duration →
      R d (b.alter target fun x => { x with statuses := x.statuses ++ [s] })
        (c.alter target fun x => { x with statuses := x.statuses ++ [s] })) :
    Follows E Eq (R d) (addStatus r e target source duration values)
      (addStatus r' e target source duration values) := by
  have heval := C.follows_deeper fun hd =>
    follows_resolveStatus (hr hd) he source target values
  unfold addStatus
  refine follows_bind_eq heval fun _ =>
    follows_bind_eq (follows_lift_battle _) fun seconds =>
      follows_get_bind fun b c h => ?_
  have hcount := C.countStatus h
  rw [C.contains h]
  obtain ⟨settings, combatants, rfl, rfl⟩ := C.exists_eq h
  split
  · exact .inr (.ok rfl (append hcount _ rfl))
  · exact .inr (.error _ hcount)

/-- The worlds see the same, and their actions follow each other if what they apply statuses by
does. -/
theorem follows_worldWith
    {act act' : (target status source : String) → Float → List Float → Action Battle Bool}
    (hact : ∀ target status source duration values, Follows E Eq (R d)
      (act target status source duration values) (act' target status source duration values)) :
    World.Follows E
      { worldWith r with
        inflict := fun target source status duration values =>
          discard (act target status source duration values) }
      { worldWith r' with
        inflict := fun target source status duration values =>
          discard (act' target status source duration values) } (R d) where
  entityExists _ _ h := C.contains h
  players _ _ h := C.players h
  activePlayers _ _ h := C.activePlayers h
  stat _ _ h := C.stat h
  harm target source type amount :=
    follows_discard (C.follows_damage hr target amount type source true)
  heal target source amount :=
    follows_modify fun _ _ h => C.restore h target amount source true
  cast caster target skill := follows_discard (C.follows_useSkill hr caster target skill)
  inflict target source status duration values :=
    follows_discard (hact target status source duration values)
  roll upper _ _ h := C.roll h upper

end Deeper

end Coupling

/-! ## Statuses -/

/-- Coupled battles of which applications of statuses see the same, too. -/
structure StatusCoupling (E : EvalError → Prop) (L L' : Nat) (R : Nat → Battle → Battle → Prop) :
    Prop extends Coupling E L L' R where
  /-- A combatant is there in both battles, with as many instances of each status, or in neither. -/
  combatant : ∀ {d b c}, R d b c → ∀ key, Option.Rel
    (fun x y => x.hasStatus = y.hasStatus ∧ x.statusCount = y.statusCount)
    (b.combatant? key) (c.combatant? key)
  append : ∀ {d b c}, R d b c → ∀ key status,
    R d (b.alter key fun x => { x with statuses := x.statuses ++ [status] })
      (c.alter key fun x => { x with statuses := x.statuses ++ [status] })
  refresh : ∀ {d b c}, R d b c → ∀ key status removal,
    R d (b.alter key fun x => { x with statuses := refreshFirst status removal x.statuses })
      (c.alter key fun x => { x with statuses := refreshFirst status removal x.statuses })

namespace StatusCoupling

variable {E : EvalError → Prop} {L L' : Nat} {R : Nat → Battle → Battle → Prop}
  (C : StatusCoupling E L L' R) {d : Nat}

include C

section Deeper

variable {r r' : Resolver}
  (hr : d < L → ∀ e : Expr, e.Steady E → Follows E Eq (R (d + 1)) (r e) (r' e))

include hr

theorem follows_addStatus {e : StatusEffect} (he : e.interval.Steady E)
    (target source : String) (duration : Float) (values : List Float) :
    Follows E Eq (R d) (addStatus r e target source duration values)
      (addStatus r' e target source duration values) :=
  C.toCoupling.follows_addStatus hr he fun h s _ => C.append h target s

theorem follows_inflict (target status source : String) (duration : Float) (values : List Float) :
    Follows E Eq (R d) (inflict r target status source duration values)
      (inflict r' target status source duration values) := by
  unfold inflict
  refine follows_get_bind fun b c h => ?_
  have heffects : c.effects = b.effects := by rw [C.eq h]
  have hnow : c.now = b.now := by rw [C.eq h]
  rw [heffects, hnow]
  cases heffect : b.effects.get? status with
  | none => exact .inr (.error _ h)
  | some e =>
    have hadd : Follows E Eq (R d)
        (addStatus r e target source duration values >>= fun _ => pure true)
        (addStatus r' e target source duration values >>= fun _ => pure true) :=
      follows_bind_eq (C.follows_addStatus hr ((C.steady h).intervals status e heffect) target
        source duration values) fun _ => follows_pure rfl
    have hcombatant := C.combatant h target
    generalize b.combatant? target = x at hcombatant ⊢
    generalize c.combatant? target = y at hcombatant ⊢
    cases hcombatant with
    | none => exact .inr (.error _ h)
    | some hxy =>
      dsimp only
      rw [hxy.1, hxy.2]
      cases e.stacking with
      | refresh =>
        dsimp only
        split
        · exact .inr (.ok rfl (C.refresh h target status _))
        · exact hadd b c h
      | none =>
        dsimp only
        split
        · exact .inr (.ok rfl h)
        · exact hadd b c h
      | independent =>
        have hstack := C.follows_mayStack hr ((C.steady h).maxStacks status e heffect) target source
          values
        refine follows_bind_eq (hstack _) (fun room => ?_) b c h
        cases room with
        | true => exact hadd
        | false => exact follows_pure rfl

/-! ## Worlds -/

theorem follows_worldWith : World.Follows E (worldWith r) (worldWith r') (R d) :=
  C.toCoupling.follows_worldWith hr (C.follows_inflict hr)

end Deeper

/-- **Levels.** Worlds with at least the levels that are left in the first battle follow each other.
The induction is on these levels; where there are none, the first battle goes no deeper. -/
theorem follows_world {n m : Nat} (hn : L - d ≤ n) (hm : L - d ≤ m) :
    World.Follows E (world n) (world m) (R d) := by
  induction h : L - d generalizing d n m with
  | zero =>
    have hlast (r r' : Resolver) : d < L → ∀ e : Expr, e.Steady E →
        Follows E Eq (R (d + 1)) (r e) (r' e) := fun hd => by omega
    cases n <;> cases m <;> exact C.follows_worldWith (hlast _ _)
  | succ k ih =>
    obtain ⟨n, rfl⟩ : ∃ n', n = n' + 1 := ⟨n - 1, by omega⟩
    obtain ⟨m, rfl⟩ : ∃ m', m = m' + 1 := ⟨m - 1, by omega⟩
    exact C.follows_worldWith fun _ e he =>
      follows_resolve (ih (by omega) (by omega) (by omega)) he

end StatusCoupling

end Skirmish.Battle
