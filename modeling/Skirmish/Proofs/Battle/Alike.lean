import Mathlib.Data.Option.Basic
import Skirmish.Proofs.Battle.Coupling
import Skirmish.Proofs.Battle.Ticks

/-!
# Battles that differ in their statuses

`Alike V S d b c`: the battles `b` and `c`, with settings `S` and at depth `d`, agree in everything
but the statuses of combatants, and those of each combatant are related by `V`. What formulas do to
a battle looks at the keys of statuses, adds one at the end and puts off the end of one. As long as
`V` lets these agree (`Blind`), whatever is done to both battles gives the same values and faults,
and leaves them alike.

1. What is seen of a battle is the same, and the changes of a battle preserve `Alike`.
2. So such battles are coupled, and damage, skills and statuses run alongside when the formulas one
   level deeper do.
3. So do expressions, by induction on the levels (`simulates_world`), and the jobs of a tick.
-/

namespace Skirmish.Battle

open Skirmish.Formula

/-- How the statuses of a combatant in one battle relate to those in the other. -/
abbrev StatusRelation := String → List ActiveStatus → List ActiveStatus → Prop

/-- The relation respects all that formulas see of statuses and do to them. -/
structure Blind (V : StatusRelation) : Prop where
  keys : ∀ {key l l'}, V key l l' → l.map (·.key) = l'.map (·.key)
  append : ∀ {key l l'}, V key l l' → ∀ s, V key (l ++ [s]) (l' ++ [s])
  refresh : ∀ {key l l'}, V key l l' → ∀ status removal,
    V key (refreshFirst status removal l) (refreshFirst status removal l')

theorem blind_eq : Blind fun _ => Eq where
  keys h := h ▸ rfl
  append h _ := h ▸ rfl
  refresh h _ _ := h ▸ rfl

/-- The combatants differ at most in their statuses, which are related. -/
structure CombatantsAlike (V : List ActiveStatus → List ActiveStatus → Prop) (x y : Combatant) :
    Prop where
  eq : y = { x with statuses := y.statuses }
  statuses : V x.statuses y.statuses

/-- The battles, with these settings and at this depth, differ at most in the statuses of
combatants, which are related. -/
structure Alike (V : StatusRelation) (S : Settings) (d : Nat) (b c : Battle) : Prop where
  eq : c = { b with combatants := c.combatants }
  combatant : ∀ key, Option.Rel (CombatantsAlike (V key)) (b.combatant? key) (c.combatant? key)
  settings : b.settings = S
  depth : b.depth = d

/-! ## What is seen of a battle -/

/-- Instances are told apart by their keys when they are counted. -/
theorem statusCount_eq_of_keys {x y : Combatant}
    (h : x.statuses.map (·.key) = y.statuses.map (·.key)) (status : String) :
    x.statusCount status = y.statusCount status := by
  have hcount (c : Combatant) : c.statusCount status = (c.statuses.map (·.key)).count status := by
    unfold Combatant.statusCount List.count
    rw [List.countP_map]
    rfl
  rw [hcount, hcount, h]

theorem hasStatus_eq_of_keys {x y : Combatant}
    (h : x.statuses.map (·.key) = y.statuses.map (·.key)) (status : String) :
    x.hasStatus status = y.hasStatus status := by
  have hany (c : Combatant) : c.hasStatus status = (c.statuses.map (·.key)).any (· = status) := by
    unfold Combatant.hasStatus
    rw [List.any_map]
    rfl
  rw [hany, hany, h]

/-- Combatants without their statuses. -/
def bare (b : Battle) : Table Combatant := b.combatants.map fun _ c => { c with statuses := [] }

theorem keysWhere_eq_bare (b : Battle) {p : Combatant → Bool}
    (h : ∀ c, p { c with statuses := [] } = p c) :
    b.keysWhere p = (b.bare.entries.filter (p ·.2)).map (·.1) := by
  unfold keysWhere bare Table.map
  rw [List.filter_map, List.map_map]
  simp only [Function.comp_def, h]

namespace Alike

variable {V : StatusRelation} {S : Settings} {d : Nat} {b c : Battle} (h : Alike V S d b c)

include h

theorem now_eq : c.now = b.now := by rw [h.eq]

theorem settings_eq : c.settings = S := by rw [h.eq]; exact h.settings

theorem depth_eq : c.depth = d := by rw [h.eq]; exact h.depth

/-- A combatant is there in both battles or in neither. -/
theorem cases_combatant? (key : String) :
    (b.combatant? key = none ∧ c.combatant? key = none) ∨
      ∃ x y, b.combatant? key = some x ∧ c.combatant? key = some y ∧
        CombatantsAlike (V key) x y := by
  have hkey := h.combatant key
  generalize b.combatant? key = x at hkey ⊢
  generalize c.combatant? key = y at hkey ⊢
  cases hkey with
  | none => exact .inl ⟨rfl, rfl⟩
  | some hxy => exact .inr ⟨_, _, rfl, rfl, hxy⟩

/-- What a combatant shows apart from its statuses. -/
theorem map_combatant? {α : Type} {f : Combatant → α}
    (hf : ∀ (x : Combatant) statuses, f { x with statuses } = f x) (key : String) :
    (b.combatant? key).map f = (c.combatant? key).map f := by
  obtain ⟨hb, hc⟩ | ⟨x, y, hb, hc, hxy⟩ := h.cases_combatant? key
  · rw [hb, hc]
  · rw [hb, hc, hxy.eq]
    exact congrArg some (hf x y.statuses).symm

theorem contains_eq (key : String) : b.contains key = c.contains key := by
  show (b.combatant? key).isSome = (c.combatant? key).isSome
  obtain ⟨hb, hc⟩ | ⟨x, y, hb, hc, -⟩ := h.cases_combatant? key
  · rw [hb, hc]
  · rw [hb, hc]
    rfl

theorem hasStat_eq : b.hasStat = c.hasStat := by
  funext key stat
  unfold hasStat
  obtain ⟨hb, hc⟩ | ⟨x, y, hb, hc, hxy⟩ := h.cases_combatant? key
  · rw [hb, hc]
  · rw [hb, hc, hxy.eq]
    rfl

theorem statOrFault_eq : b.statOrFault = c.statOrFault := by
  funext key stat
  unfold statOrFault
  obtain ⟨hb, hc⟩ | ⟨x, y, hb, hc, hxy⟩ := h.cases_combatant? key
  · rw [hb, hc]
  · rw [hb, hc, hxy.eq]
    rfl

theorem bare_eq : b.bare = c.bare := by
  refine Table.ext_get? fun key => ?_
  unfold bare
  rw [Table.get?_map, Table.get?_map]
  exact h.map_combatant? (fun _ _ => rfl) key

theorem names_eq : b.combatants.names = c.combatants.names := by
  have hb : b.bare.names = c.bare.names := by rw [h.bare_eq]
  unfold bare at hb
  rwa [Table.names_map, Table.names_map] at hb

theorem players_eq : b.players = c.players := by
  unfold players
  rw [keysWhere_eq_bare b fun _ => rfl, keysWhere_eq_bare c fun _ => rfl, h.bare_eq]

theorem activePlayers_eq : b.activePlayers = c.activePlayers := by
  unfold activePlayers
  rw [keysWhere_eq_bare b fun _ => rfl, keysWhere_eq_bare c fun _ => rfl, h.bare_eq, h.settings,
    h.settings_eq]

/-- What is related as the combatants of the battles are. -/
theorem mono {W : StatusRelation}
    (hW : ∀ key x y, b.combatant? key = some x → c.combatant? key = some y →
      V key x.statuses y.statuses → W key x.statuses y.statuses) : Alike W S d b c := by
  refine ⟨h.eq, fun key => ?_, h.settings, h.depth⟩
  obtain ⟨hb, hc⟩ | ⟨x, y, hb, hc, hxy⟩ := h.cases_combatant? key <;> rw [hb, hc]
  · exact .none
  · exact .some ⟨hxy.eq, hW key x y hb hc hxy.statuses⟩

/-! ## Changes of both battles -/

/-- Changes of one combatant, which may change how its statuses are related. -/
theorem alter_at {W : StatusRelation} {key : String} {f f' : Combatant → Combatant}
    (hkey : ∀ x y, b.combatant? key = some x → CombatantsAlike (V key) x y →
      CombatantsAlike (W key) (f x) (f' y))
    (hother : ∀ other, other ≠ key → ∀ l l', V other l l' → W other l l') :
    Alike W S d (b.alter key f) (c.alter key f') := by
  refine ⟨?_, fun other => ?_, h.settings, h.depth⟩
  · unfold alter
    rw [h.eq]
  · rw [combatant?_alter, combatant?_alter]
    by_cases ho : other = key
    · rw [if_pos ho, if_pos ho]
      subst ho
      obtain ⟨hb, hc⟩ | ⟨x, y, hb, hc, hxy⟩ := h.cases_combatant? other
      · rw [hb, hc]
        exact .none
      · rw [hb, hc]
        exact .some (hkey x y hb hxy)
    · rw [if_neg ho, if_neg ho]
      obtain ⟨hb, hc⟩ | ⟨x, y, hb, hc, hxy⟩ := h.cases_combatant? other <;> rw [hb, hc]
      · exact .none
      · exact .some ⟨hxy.eq, hother other ho _ _ hxy.statuses⟩

theorem alter_to {W : StatusRelation} {key : String} {f f' : Combatant → Combatant}
    (hkey : ∀ x y, CombatantsAlike (V key) x y → CombatantsAlike (W key) (f x) (f' y))
    (hother : ∀ other, other ≠ key → ∀ l l', V other l l' → W other l l') :
    Alike W S d (b.alter key f) (c.alter key f') :=
  h.alter_at (fun x y _ => hkey x y) hother

theorem alter {key : String} {f f' : Combatant → Combatant}
    (hkey : ∀ x y, CombatantsAlike (V key) x y → CombatantsAlike (V key) (f x) (f' y)) :
    Alike V S d (b.alter key f) (c.alter key f') :=
  h.alter_to hkey fun _ _ _ _ hl => hl

/-- A change that neither looks at statuses nor touches them. -/
theorem alter_stats {key : String} {f : Combatant → Combatant}
    (hf : ∀ (x : Combatant) statuses, f { x with statuses } = { f x with statuses })
    (hstatuses : ∀ x, (f x).statuses = x.statuses) :
    Alike V S d (b.alter key f) (c.alter key f) := by
  refine h.alter fun x y hxy => ⟨?_, ?_⟩
  · rw [hstatuses, ← hf, ← hxy.eq]
  · rw [hstatuses, hstatuses]
    exact hxy.statuses

theorem hit (key : String) (delta : Float) :
    Alike V S d (b.alter key (·.adjustPersistent b.settings.hpStat delta))
      (c.alter key (·.adjustPersistent c.settings.hpStat delta)) := by
  rw [h.settings, h.settings_eq]
  exact h.alter_stats (fun _ _ => rfl) fun _ => rfl

end Alike

/-! ## Actions on both battles -/

section Actions

variable {V : StatusRelation} {S : Settings} {d : Nat}

theorem coupling_alike :
    Coupling (fun _ => False) S.reentryLimit S.reentryLimit (Alike V S) where
  limits := .inl rfl
  eq {_ b c} h := by
    have hsettings : c.settings = b.settings := h.settings_eq.trans h.settings.symm
    rw [hsettings]
    exact h.eq
  limit h := congrArg Settings.reentryLimit h.settings
  limit' h := congrArg Settings.reentryLimit h.settings_eq
  depth h := h.depth
  steady _ := formulasOver_of_forall Function.steady_none
  contains h := funext h.contains_eq
  hasStat h := h.hasStat_eq
  stat h := h.statOrFault_eq
  players h := h.players_eq
  activePlayers h := h.activePlayers_eq
  other h _ _ _ _ := by
    refine ⟨?_, h.combatant, h.settings, rfl⟩
    rw [h.eq]
  hit h := h.hit

theorem statusCoupling_alike (hV : Blind V) :
    StatusCoupling (fun _ => False) S.reentryLimit S.reentryLimit (Alike V S) :=
  { coupling_alike with
    combatant := by
      intro d b c h key
      obtain ⟨hb, hc⟩ | ⟨x, y, hb, hc, hxy⟩ := h.cases_combatant? key <;> rw [hb, hc]
      · exact .none
      · have hkeys := hV.keys hxy.statuses
        exact .some ⟨funext (hasStatus_eq_of_keys hkeys), funext (statusCount_eq_of_keys hkeys)⟩
    append := fun h _ _ => h.alter fun x y hxy => by
      rw [hxy.eq]
      exact ⟨rfl, hV.append hxy.statuses _⟩
    refresh := fun h _ _ _ => h.alter fun x y hxy => by
      rw [hxy.eq]
      exact ⟨rfl, hV.refresh hxy.statuses _ _⟩ }

theorem simulates_lift_battle {α : Type} (x : Except EvalError α) :
    Simulates (Alike V S d) (lift x) (lift x) :=
  matches_iff_follows.2 (Coupling.follows_lift_battle x)

section Formulas

variable {r r' : Resolver} (hr : ∀ e, Simulates (Alike V S d) (r e) (r' e))

include hr

theorem simulates_isDodged (t : DamageType) (source target : String) :
    Simulates (Alike V S d) (isDodged r t source target) (isDodged r' t source target) :=
  matches_iff_follows.2 <| coupling_alike.follows_isDodged (fun e _ => matches_iff_follows.1 (hr e))
    (t.formulasOver_of_forall Function.steady_none) source target

theorem simulates_outcome (t : DamageType) (raw : Float) (source target : String) :
    Simulates (Alike V S d) (outcome r t raw source target) (outcome r' t raw source target) :=
  matches_iff_follows.2 <| coupling_alike.follows_outcome (fun e _ => matches_iff_follows.1 (hr e))
    (t.formulasOver_of_forall Function.steady_none) raw source target

end Formulas

section Deeper

variable {r r' : Resolver}
  (hr : d < S.reentryLimit → ∀ e, Simulates (Alike V S (d + 1)) (r e) (r' e))

include hr

theorem simulates_damage (target : String) (amount : Float) (type source : String)
    (logged : Bool) :
    Simulates (Alike V S d) (damage r target amount type source logged)
      (damage r' target amount type source logged) :=
  matches_iff_follows.2 <| coupling_alike.follows_damage
    (fun hd e _ => matches_iff_follows.1 (hr hd e)) target amount type source logged

theorem simulates_useSkill (caster target skill : String) :
    Simulates (Alike V S d) (useSkill r caster target skill)
      (useSkill r' caster target skill) :=
  matches_iff_follows.2 <| coupling_alike.follows_useSkill
    (fun hd e _ => matches_iff_follows.1 (hr hd e)) caster target skill

theorem simulates_evalComponent (key : String) (status : ActiveStatus) (component : Expr) :
    Simulates (Alike V S d) (evalComponent r key status component)
      (evalComponent r' key status component) :=
  matches_iff_follows.2 <| coupling_alike.follows_deeper fun hd =>
    Coupling.follows_resolveStatus (fun e _ => matches_iff_follows.1 (hr hd e))
      (fun f _ => f.steady_none) _ _ _

variable (hV : Blind V)

include hV

theorem simulates_inflict (target status source : String) (duration : Float)
    (values : List Float) :
    Simulates (Alike V S d) (inflict r target status source duration values)
      (inflict r' target status source duration values) :=
  matches_iff_follows.2 <| (statusCoupling_alike hV).follows_inflict
    (fun hd e _ => matches_iff_follows.1 (hr hd e)) target status source duration values

theorem simulates_worldWith : (worldWith r).Simulates (worldWith r') (Alike V S d) :=
  World.simulates_iff_follows.2 <| (statusCoupling_alike hV).follows_worldWith
    fun hd e _ => matches_iff_follows.1 (hr hd e)

end Deeper

/-- **Expressions.** In battles that are alike an expression has the same value or fault, and
leaves them alike. -/
theorem simulates_world (hV : Blind V) (n : Nat) :
    (world n).Simulates (world n) (Alike V S d) := by
  induction n generalizing d with
  | zero =>
    refine simulates_worldWith (fun _ e b c h => ?_) hV
    unfold refuse
    rw [h.settings, h.settings_eq]
    exact .error _ h
  | succ n ih => exact simulates_worldWith (fun _ e => simulates_resolve ih e) hV

end Actions

/-! ## Passes over both battles -/

/-- From related battles, the passes collect the same faults and end in related battles. -/
def Alongside (R : Battle → Battle → Prop) (pass pass' : Pass) : Prop :=
  ∀ b c, R b c → (pass b).1 = (pass' c).1 ∧ R (pass b).2 (pass' c).2

section Passes

variable {R : Battle → Battle → Prop}

theorem alongside_attempt {act act' : Action Battle Unit} (h : Simulates R act act') :
    Alongside R (attempt act) (attempt act') := by
  intro b c hbc
  unfold attempt
  obtain ⟨x, y, b', c', hb, hc, -, state⟩ | ⟨e, b', c', hb, hc, state⟩ := h.ends hbc
  · rw [hb, hc]
    exact ⟨rfl, state⟩
  · rw [hb, hc]
    exact ⟨rfl, state⟩

theorem alongside_forEach {α : Type} {pass pass' : α → Pass} (xs : List α)
    (h : ∀ x, Alongside R (pass x) (pass' x)) :
    Alongside R (forEach xs pass) (forEach xs pass') := by
  induction xs with
  | nil => exact fun b c hbc => ⟨rfl, hbc⟩
  | cons x rest ih =>
    intro b c hbc
    obtain ⟨hfaults, hbattle⟩ := h x b c hbc
    obtain ⟨hfaults', hbattle'⟩ := ih _ _ hbattle
    rw [forEach_cons, forEach_cons]
    exact ⟨by rw [hfaults, hfaults'], hbattle'⟩

variable {V : StatusRelation} {S : Settings} {d : Nat} {r r' : Resolver}
  (hr : d < S.reentryLimit → ∀ e, Simulates (Alike V S (d + 1)) (r e) (r' e))

include hr

theorem simulates_perform_job (key : String) (j : Job) :
    Simulates (Alike V S d) (j.perform r key) (j.perform r' key) := by
  have heval := simulates_evalComponent hr key j.status j.component
  unfold Job.perform
  split
  · refine simulates_bind heval fun v => simulates_bind (simulates_lift_battle _) fun change => ?_
    exact simulates_modify fun _ _ h => h.alter_stats (fun _ _ => rfl) fun _ => rfl
  · exact simulates_discard heval

theorem alongside_work (key : String) (js : List Job) :
    Alongside (Alike V S d) (work r key js) (work r' key js) :=
  alongside_forEach js fun j => alongside_attempt (simulates_perform_job hr key j)

end Passes

end Skirmish.Battle
