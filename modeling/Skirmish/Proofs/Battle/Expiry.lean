import Skirmish.Proofs.Battle.Duration
import Skirmish.Proofs.Battle.Instances
import Skirmish.Proofs.Battle.Reentry
import Skirmish.Proofs.Formula.Quiet

/-!
# Expired instances

An instance whose end has passed stays until the next tick of its combatant. `purge` deletes those
of a status on a target at once. In which applications does it matter that they are there?

1. `Evolves.mem_of_isExpired`: what formulas add or put off has not expired yet.
2. `swayed`: expired instances decide an application. `Unswayed`: they decide neither an application
   nor, within the formulas that it evaluates, another one of the same status to the same target.
   As in `Reentry`, something else may stand in for whatever is not to happen (`heed`, `heeding`).
3. `sameEnd_inflict`: two battles of which an application sees the same. Where applications with
   replacements run alongside applications, formulas do (`simulates_heeding`).
4. `unswayed_of_single`, `unswayed_of_quiet`, `unswayed_of_unlimited`: where expired instances
   decide nothing.
-/

namespace Skirmish.Battle

open Skirmish.Formula

/-! ## Deleting expired instances -/

/-- All instances but the expired ones of a status. -/
def unexpired (status : String) (now : Timestamp) (l : List ActiveStatus) : List ActiveStatus :=
  l.filter fun s => !(s.key = status && s.isExpired now)

/-- The combatant without the expired instances of a status. -/
def Combatant.purged (status : String) (now : Timestamp) (x : Combatant) : Combatant :=
  { x with statuses := unexpired status now x.statuses }

/-- Deletes the expired instances of a status on a target. -/
def purge (target status : String) (b : Battle) : Battle :=
  b.alter target (·.purged status b.now)

section Lists

variable {status key : String} {now : Timestamp} {removal : Option Timestamp}
  {l : List ActiveStatus}

theorem unexpired_cons (s : ActiveStatus) (l : List ActiveStatus) :
    unexpired status now (s :: l) =
      if s.key = status ∧ s.isExpired now = true then unexpired status now l
      else s :: unexpired status now l := by
  unfold unexpired
  rw [List.filter_cons]
  by_cases hk : s.key = status <;> cases s.isExpired now <;> simp [hk]

theorem unexpired_append {s : ActiveStatus} (h : s.isExpired now = false) :
    unexpired status now (l ++ [s]) = unexpired status now l ++ [s] := by
  unfold unexpired
  rw [List.filter_append, List.filter_singleton, h, Bool.and_false]
  rfl

theorem unexpired_eq_self (h : ∀ s ∈ l, s.key = status → s.isExpired now = false) :
    unexpired status now l = l := by
  refine List.filter_eq_self.2 fun s hs => ?_
  by_cases hk : s.key = status
  · simp [h s hs hk]
  · simp [hk]

/-- A refreshed instance stays where it is. It has to be another status that is refreshed, or the
first instance must not have expired. -/
theorem unexpired_refreshFirst (hremoval : ∀ s : ActiveStatus, s.removal = removal →
      s.isExpired now = false)
    (hfirst : key = status → ∀ s, l.find? (·.key = key) = some s → s.isExpired now = false) :
    unexpired status now (refreshFirst key removal l) =
      refreshFirst key removal (unexpired status now l) := by
  induction l with
  | nil => rfl
  | cons s rest ih =>
    rw [refreshFirst, unexpired_cons]
    by_cases hk : s.key = key
    · have hkept : ¬(s.key = status ∧ s.isExpired now = true) := by
        intro h
        have hfound : (s :: rest).find? (·.key = key) = some s :=
          List.find?_cons_of_pos (decide_eq_true hk)
        rw [hfirst (hk.symm.trans h.1) s hfound] at h
        cases h.2
      rw [if_pos hk, unexpired_cons, if_neg (fun h => ?_), if_neg hkept, refreshFirst, if_pos hk]
      rw [hremoval _ rfl] at h
      cases h.2
    · have hrest := ih fun hstatus t ht => hfirst hstatus t <| by
        rw [List.find?_cons_of_neg (by simpa using hk)]
        exact ht
      rw [if_neg hk, unexpired_cons, hrest]
      split
      · rfl
      · rw [refreshFirst, if_neg hk]

end Lists

namespace Combatant

variable {status key : String} {now : Timestamp} {x : Combatant}

theorem statusCount_purged_of_ne (h : key ≠ status) :
    (x.purged status now).statusCount key = x.statusCount key := by
  unfold statusCount purged unexpired
  rw [List.countP_filter]
  refine List.countP_congr fun s _ => ?_
  by_cases hk : s.key = key
  · have hne : s.key ≠ status := hk ▸ h
    simp [hk, h]
  · simp [hk]

theorem statusCount_purged_le : (x.purged status now).statusCount key ≤ x.statusCount key :=
  List.filter_sublist.countP_le

theorem hasStatus_congr {x y : Combatant} (h : x.statusCount key = y.statusCount key) :
    x.hasStatus key = y.hasStatus key := by
  have hiff : x.hasStatus key = false ↔ y.hasStatus key = false := by
    rw [← statusCount_eq_zero_iff, ← statusCount_eq_zero_iff, h]
  cases hx : x.hasStatus key <;> cases hy : y.hasStatus key <;> simp_all

theorem hasStatus_of_purged (h : (x.purged status now).hasStatus key = true) :
    x.hasStatus key = true := by
  obtain ⟨s, hs, hk⟩ := List.any_eq_true.1 h
  exact List.any_eq_true.2 ⟨s, List.mem_of_mem_filter hs, hk⟩

theorem mem_of_status? {s : ActiveStatus} (h : x.status? status = some s) :
    s ∈ x.statuses ∧ s.key = status :=
  ⟨List.mem_of_find?_eq_some h, by simpa using List.find?_some h⟩

theorem hasStatus_of_mem {s : ActiveStatus} (hs : s ∈ x.statuses) (hk : s.key = status) :
    x.hasStatus status = true := List.any_eq_true.2 ⟨s, hs, decide_eq_true hk⟩

/-- If the first instance has not expired, it is not deleted. -/
theorem hasStatus_purged_of_first (h : (x.status? status).any (·.isExpired now) = false) :
    (x.purged status now).hasStatus status = x.hasStatus status := by
  cases hx : x.status? status with
  | none =>
    have hnone : x.hasStatus status = false :=
      List.any_eq_false.2 fun s hs => List.find?_eq_none.1 hx s hs
    rw [hnone]
    exact eq_false_of_ne_true fun hhas => by
      rw [hasStatus_of_purged hhas] at hnone
      cases hnone
  | some s =>
    rw [hx, Option.any_some] at h
    obtain ⟨hmem, hkey⟩ := mem_of_status? hx
    have hkept : s ∈ (x.purged status now).statuses :=
      List.mem_filter.2 ⟨hmem, by rw [h, Bool.and_false]; rfl⟩
    rw [hasStatus_of_mem hmem hkey, hasStatus_of_mem hkept hkey]

end Combatant

/-! ## Where expired instances come from -/

theorem mem_refreshFirst {key : String} {removal : Option Timestamp} {l : List ActiveStatus}
    {s : ActiveStatus} (h : s ∈ refreshFirst key removal l) : s ∈ l ∨ s.removal = removal := by
  induction l with
  | nil => exact .inl h
  | cons t rest ih =>
    rw [refreshFirst] at h
    split at h
    · rcases List.mem_cons.1 h with rfl | h
      · exact .inr rfl
      · exact .inl (.tail t h)
    · rcases List.mem_cons.1 h with rfl | h
      · exact .inl List.mem_cons_self
      · exact (ih h).imp_left (.tail t)

/-- Formulas put no expired instances on anyone: what has expired afterwards was there before. -/
theorem Evolves.mem_of_isExpired {silent : Bool} {b c : Battle} (h : Evolves silent b c)
    {key : String} {s : ActiveStatus} (hs : s ∈ c.statusesOf key)
    (hexpired : s.isExpired c.now = true) : s ∈ b.statusesOf key := by
  induction h with
  | refl => exact hs
  | trans _ k ih ih' => exact ih (ih' hs hexpired) (k.frame.now ▸ hexpired)
  | roll => exact hs
  | event logged => rwa [statusesOf_undergo] at hs
  | nested _ _ ih => exact ih hs hexpired
  | @refresh b target status _ _ duration =>
    rw [statusesOf_prolong] at hs
    split at hs
    · next hk =>
      rcases mem_refreshFirst hs with hs | hs
      · exact hk ▸ hs
      · have hfresh : s.isExpired b.now = false := isExpired_of_removalTime hs
        exact absurd hexpired (hfresh ▸ Bool.false_ne_true)
    · exact hs
  | @inflict b c target status e x source duration values interval _ there _ inner ih =>
    obtain ⟨y, hy, -⟩ := inner.frame.exists_of_some there
    rw [statusesOf_afflict hy] at hs
    split at hs
    · next hk =>
      rcases List.mem_append.1 hs with hs | hs
      · exact ih (hk ▸ hs) hexpired
      · have hfresh : s.isExpired c.now = false := by
          rw [List.mem_singleton.1 hs]
          exact isExpired_of_removalTime rfl
        exact absurd hexpired (hfresh ▸ Bool.false_ne_true)
    · exact ih hs hexpired

/-! ## Applications that expired instances decide -/

/-- Whether the action gave this answer. -/
def gives {ε : Type} (answer : Bool) : EStateM.Result ε Battle Bool → Bool
  | .ok a _ => a == answer
  | .error _ _ => false

/-- Whether expired instances decide the application of a status: the one that would be refreshed
has expired, all of a status that does not stack have, or there is room for one more only without
those that have. -/
def swayed (r : Resolver) (target status source : String) (values : List Float) (b : Battle) :
    Bool :=
  match b.effects.get? status, b.combatant? target with
  | some e, some x =>
    let y := x.purged status b.now
    match e.stacking with
    | .refresh => (x.status? status).any (·.isExpired b.now)
    | .none => x.hasStatus status && !y.hasStatus status
    | .independent =>
      gives true (mayStack r e target source values (y.statusCount status) b) &&
        gives false (mayStack r e target source values (x.statusCount status) b)
  | _, _ => false

section Heeding

variable (instead : (source : String) → Float → List Float → Action Battle Bool)
  (target status : String)

/-- Applies a status, but does something else instead where this is an application of `status` to
`target` that expired instances decide. -/
def heed (r : Resolver) (key other source : String) (duration : Float) (values : List Float) :
    Action Battle Bool := fun b =>
  if key = target ∧ other = status ∧ b.swayed r key other source values = true then
    instead source duration values b
  else inflict r key other source duration values b

/-- The world whose applications are such. -/
def heedingWith (r : Resolver) : World Battle :=
  { worldWith r with
    inflict := fun key source other duration values =>
      discard (heed instead target status r key other source duration values) }

/-- The world of formulas that can go `n` levels deeper, with such applications on all levels. -/
def heeding : Nat → World Battle
  | 0 => heedingWith instead target status refuse
  | n + 1 => heedingWith instead target status fun e => e.resolve (heeding n)

end Heeding

/-- Expired instances decide neither this application nor one of the same status to the same target
that its formulas set off: whatever is done in place of these, it makes no difference. -/
def Unswayed (b : Battle) (target status source : String) (duration : Float)
    (values : List Float) : Prop :=
  ∀ instead, heed instead target status
      (fun e => e.resolve (heeding instead target status (b.levels - 1))) target status source
        duration values b =
    inflict b.below target status source duration values b

/-! ## What applications of a status see -/

section Seen

variable {r : Resolver} {e : StatusEffect} {target status source : String} {values : List Float}
  {b : Battle} {x : Combatant}

/-- The number of instances is looked at when the limit has been evaluated. -/
theorem mayStack_ends (r : Resolver) (e : StatusEffect) (target source : String)
    (values : List Float) (b : Battle) :
    (∃ err c, ∀ n, mayStack r e target source values n b = .error err c) ∨
      ∃ k c, ∀ n, mayStack r e target source values n b = .ok (k = 0 || n < k) c := by
  unfold mayStack
  cases e.maxStacks with
  | none => exact .inr ⟨0, b, fun _ => rfl⟩
  | some limit =>
    dsimp only
    cases hv : deeper (resolveStatus r limit source target values) b with
    | error err c => exact .inl ⟨err, c, fun n => bind_of_error hv⟩
    | ok v c =>
      cases hn : v.asNumber with
      | error err =>
        refine .inl ⟨err, c, fun n => ?_⟩
        rw [bind_of_ok hv, hn]
        rfl
      | ok limit =>
        refine .inr ⟨stackLimit limit, c, fun n => ?_⟩
        rw [bind_of_ok hv, hn]
        rfl

theorem swayed_of_unknown (h : b.effects.get? status = none) :
    swayed r target status source values b = false := by
  unfold swayed
  rw [h]

theorem swayed_of_absent (h : b.combatant? target = none) :
    swayed r target status source values b = false := by
  unfold swayed
  rw [h]
  cases b.effects.get? status <;> rfl

theorem swayed_eq (known : b.effects.get? status = some e)
    (there : b.combatant? target = some x) :
    swayed r target status source values b =
      match e.stacking with
      | .refresh => (x.status? status).any (·.isExpired b.now)
      | .none => x.hasStatus status && !(x.purged status b.now).hasStatus status
      | .independent =>
        gives true (mayStack r e target source values
            ((x.purged status b.now).statusCount status) b) &&
          gives false (mayStack r e target source values (x.statusCount status) b) := by
  unfold swayed
  rw [known, there]

variable (known : b.effects.get? status = some e) (there : b.combatant? target = some x)
  (h : swayed r target status source values b = false)

include known there h

theorem hasStatus_purged_of_not_swayed (kind : e.stacking ≠ .independent) :
    (x.purged status b.now).hasStatus status = x.hasStatus status := by
  rw [swayed_eq known there] at h
  cases hkind : e.stacking with
  | refresh =>
    rw [hkind] at h
    exact Combatant.hasStatus_purged_of_first h
  | none =>
    rw [hkind] at h
    cases hx : (x.purged status b.now).hasStatus status with
    | true => exact (Combatant.hasStatus_of_purged hx).symm
    | false =>
      rw [hx] at h
      simpa using h.symm
  | independent => exact absurd hkind kind

/-- With fewer instances there is no less room. -/
theorem mayStack_purged_of_not_swayed (kind : e.stacking = .independent) :
    mayStack r e target source values ((x.purged status b.now).statusCount status) b =
      mayStack r e target source values (x.statusCount status) b := by
  have hle : (x.purged status b.now).statusCount status ≤ x.statusCount status :=
    Combatant.statusCount_purged_le
  rw [swayed_eq known there, kind] at h
  obtain ⟨err, c, hend⟩ | ⟨k, c, hend⟩ := mayStack_ends r e target source values b
  · rw [hend, hend]
  · rw [hend, hend] at h ⊢
    by_cases hk : k = 0
    · simp [hk]
    · by_cases hroom : x.statusCount status < k
      · have hroom' : (x.purged status b.now).statusCount status < k := by omega
        simp [hroom, hroom']
      · have hfull : ¬(x.purged status b.now).statusCount status < k := by
          simpa [gives, hk, hroom] using h
        simp [hroom, hfull]

end Seen

/-! ## Two battles -/

/-- A property of battles that is kept whatever formulas do: hits, log, dice, ids, and the depth do
not touch it, and neither do instances that are added or put off. -/
structure Kept (P : Battle → Prop) : Prop where
  other : ∀ {b}, P b → ∀ n log dice nextStatusId,
    P { b with log, dice, nextStatusId, depth := n }
  alter : ∀ {b}, P b → ∀ key f, (∀ x : Combatant, (f x).statuses = x.statuses) →
    P (b.alter key f)
  append : ∀ {b}, P b → ∀ key s, s.isExpired b.now = false →
    P (b.alter key fun x => { x with statuses := x.statuses ++ [s] })
  prolong : ∀ {b}, P b → ∀ target status duration, P (b.prolong target status duration)

/-- Battles that are alike, the first of which has the property `P`. -/
def Beside (V : StatusRelation) (P : Battle → Prop) (S : Settings) (d : Nat) (b c : Battle) :
    Prop :=
  Alike V S d b c ∧ P b

section Beside

variable {V : StatusRelation} {P : Battle → Prop} {S : Settings} {d : Nat}

theorem coupling_beside (hP : Kept P) :
    Coupling (fun _ => False) S.reentryLimit S.reentryLimit (Beside V P S) where
  limits := .inl rfl
  eq h := coupling_alike.eq h.1
  limit h := coupling_alike.limit h.1
  limit' h := coupling_alike.limit' h.1
  depth h := h.1.depth
  steady h := coupling_alike.steady h.1
  contains h := coupling_alike.contains h.1
  hasStat h := coupling_alike.hasStat h.1
  stat h := coupling_alike.stat h.1
  players h := coupling_alike.players h.1
  activePlayers h := coupling_alike.activePlayers h.1
  other h _ _ _ _ := ⟨coupling_alike.other h.1 .., hP.other h.2 ..⟩
  hit h _ _ := ⟨coupling_alike.hit h.1 .., hP.alter h.2 _ _ fun _ => rfl⟩

variable {r r' : Resolver} {target status source : String} {duration : Float}
  {values : List Float}

/-- What an application sees of two battles is the same: whether the status is there, or whether
there is room for one more instance. What it puts off it puts off in both. -/
structure SeenAlike (V : StatusRelation) (S : Settings) (d : Nat) (r : Resolver)
    (target status source : String) (duration : Float) (values : List Float) (b c : Battle)
    (e : StatusEffect) (x y : Combatant) : Prop where
  has : e.stacking ≠ .independent → y.hasStatus status = x.hasStatus status
  prolong : e.stacking = .refresh →
    Alike V S d (b.prolong target status duration) (c.prolong target status duration)
  room : e.stacking = .independent →
    mayStack r e target source values (y.statusCount status) b =
      mayStack r e target source values (x.statusCount status) b

/-- Where it is, and both battles stay alike when an instance is added, the application ends
alike. -/
theorem sameEnd_inflict (hP : Kept P)
    (hr : d < S.reentryLimit → ∀ e, Simulates (Beside V P S (d + 1)) (r e) (r' e))
    (append : ∀ {b c : Battle} {s : ActiveStatus}, Beside V P S d b c → s.isExpired b.now = false →
      Alike V S d (b.alter target fun x => { x with statuses := x.statuses ++ [s] })
        (c.alter target fun x => { x with statuses := x.statuses ++ [s] }))
    {b c : Battle} (h : Beside V P S d b c)
    (seen : ∀ e x y, b.effects.get? status = some e → b.combatant? target = some x →
      CombatantsAlike (V target) x y →
      SeenAlike V S d r target status source duration values b c e x y) :
    SameEnd Eq (Beside V P S d) (inflict r target status source duration values b)
      (inflict r' target status source duration values c) := by
  have hr' (hd : d < S.reentryLimit) (e : Expr) (_ : e.Steady fun _ => False) :=
    matches_iff_follows.1 (hr hd e)
  have C : Coupling (fun _ => False) S.reentryLimit S.reentryLimit (Beside V P S) :=
    coupling_beside hP
  have heffects : c.effects = b.effects := by rw [h.1.eq]
  cases known : b.effects.get? status with
  | none =>
    rw [inflict_of_unknown known, inflict_of_unknown (heffects ▸ known)]
    exact .error _ h
  | some e =>
    have known' : c.effects.get? status = some e := heffects ▸ known
    have hadd : Simulates (Beside V P S d)
        (addStatus r e target source duration values >>= fun _ => pure true)
        (addStatus r' e target source duration values >>= fun _ => pure true) :=
      matches_iff_follows.2 <| follows_bind_eq
        (C.follows_addStatus hr' (fun f _ => f.steady_none) fun hbc s hs =>
          have hfresh := isExpired_of_removalTime hs
          ⟨append hbc hfresh, hP.append hbc.2 target s hfresh⟩) fun _ => follows_pure rfl
    obtain ⟨hb, hc⟩ | ⟨x, y, hb, hc, hxy⟩ := h.1.cases_combatant? target
    · rw [inflict_of_absent known hb, inflict_of_absent known' hc]
      exact .error _ h
    · obtain ⟨has, prolong, room⟩ := seen e x y known hb hxy
      by_cases kind : e.stacking = .independent
      · rw [inflict_independent known hb kind, inflict_independent known' hc kind]
        have hstack : Simulates (Beside V P S d)
            (mayStack r e target source values (y.statusCount status))
            (mayStack r' e target source values (y.statusCount status)) :=
          matches_iff_follows.2 <| C.follows_mayStack hr' (fun _ _ f _ => f.steady_none) target
            source values _
        obtain ⟨a, _, b', c', hb', hc', rfl, state⟩ | ⟨err, b', c', hb', hc', state⟩ :=
          hstack.ends h
        · rw [bind_of_ok (room kind ▸ hb'), bind_of_ok hc']
          cases a with
          | true => exact hadd b' c' state
          | false => exact .ok rfl state
        · rw [bind_of_error (room kind ▸ hb'), bind_of_error hc']
          exact .error err state
      · cases hx : x.hasStatus status with
        | false =>
          rw [inflict_new known hb kind hx,
            inflict_new known' hc kind ((has kind).trans hx)]
          exact hadd b c h
        | true =>
          have hy : y.hasStatus status = true := (has kind).trans hx
          cases hkind : e.stacking with
          | refresh =>
            rw [inflict_refresh known hb hkind hx, inflict_refresh known' hc hkind hy]
            exact .ok rfl ⟨prolong hkind, hP.prolong h.2 ..⟩
          | none =>
            rw [inflict_none known hb hkind hx, inflict_none known' hc hkind hy]
            exact .ok rfl h
          | independent => exact absurd hkind kind

variable {instead : (source : String) → Float → List Float → Action Battle Bool}

/-- Applications in place of which something else may be done run alongside applications, wherever
formulas one level deeper do. -/
def HeedsAlike (V : StatusRelation) (P : Battle → Prop) (S : Settings)
    (instead : (source : String) → Float → List Float → Action Battle Bool)
    (target status : String) : Prop :=
  ∀ d (r r' : Resolver),
    (d < S.reentryLimit → ∀ e, Simulates (Beside V P S (d + 1)) (r e) (r' e)) →
    (d < S.reentryLimit → r' = fun e => e.resolve (world (S.reentryLimit - d - 1))) →
    ∀ key other source duration values, Simulates (Beside V P S d)
      (heed instead target status r key other source duration values)
      (inflict r' key other source duration values)

/-- **Levels.** Then formulas do so. The induction is on the levels left. -/
theorem simulates_heeding (hP : Kept P) (hheed : HeedsAlike V P S instead target status) {n : Nat}
    (hn : S.reentryLimit - d = n) :
    (heeding instead target status n).Simulates (world n) (Beside V P S d) := by
  have C : Coupling (fun _ => False) S.reentryLimit S.reentryLimit (Beside V P S) :=
    coupling_beside hP
  have hworld {d : Nat} {r r' : Resolver}
      (hr : d < S.reentryLimit → ∀ e, Simulates (Beside V P S (d + 1)) (r e) (r' e))
      (hr' : d < S.reentryLimit → r' = fun e => e.resolve (world (S.reentryLimit - d - 1))) :
      (heedingWith instead target status r).Simulates (worldWith r') (Beside V P S d) :=
    World.simulates_iff_follows.2 <|
      C.follows_worldWith (fun hd e _ => matches_iff_follows.1 (hr hd e))
        fun _ _ _ _ _ => matches_iff_follows.1 (hheed d r r' hr hr' _ _ _ _ _)
  induction n generalizing d with
  | zero => exact hworld (fun hd => by omega) fun hd => by omega
  | succ n ih =>
    refine hworld (fun _ e => simulates_resolve (ih (by omega)) e) fun _ => ?_
    rw [hn]
    rfl

/-- So does an application of the status to the target. -/
theorem simulates_heed (hP : Kept P) (hheed : HeedsAlike V P S instead target status)
    (source : String) (duration : Float) (values : List Float) :
    Simulates (Beside V P S d)
      (heed instead target status
        (fun e => e.resolve (heeding instead target status (S.reentryLimit - d - 1))) target status
          source duration values)
      (inflict (fun e => e.resolve (world (S.reentryLimit - d - 1))) target status source duration
        values) :=
  hheed d _ _ (fun _ e => simulates_resolve (simulates_heeding hP hheed (by omega)) e)
    (fun _ => rfl) target status source duration values

end Beside

/-! ## Where expired instances decide nothing -/

section Unswayed

variable {P : Battle → Prop} {b : Battle} {target status source : String} {duration : Float}
  {values : List Float}

/-- Expired instances decide nothing in battles with a property that is kept, if they decide no
application in such a battle. -/
theorem unswayed_of_kept (hP : Kept P)
    (never : ∀ c, P c → ∀ r source values, swayed r target status source values c = false)
    (hb : P b) : b.Unswayed target status source duration values := by
  intro instead
  have hheed : HeedsAlike (fun _ => Eq) P b.settings instead target status := by
    intro d r r' hr _ key other source duration values c c' h
    have hc : ¬(key = target ∧ other = status ∧ swayed r key other source values c = true) := by
      rintro ⟨rfl, rfl, hswayed⟩
      rw [never c h.2] at hswayed
      cases hswayed
    unfold heed
    rw [if_neg hc]
    refine sameEnd_inflict hP hr (fun hbc _ => ?_) h fun e x y _ _ hxy => ?_
    · exact (statusCoupling_alike blind_eq).append hbc.1 key _
    · have heq : y = x := by rw [hxy.eq, ← hxy.statuses]
      rw [heq]
      refine ⟨fun _ => rfl, fun _ => ?_, fun _ => rfl⟩
      rw [← h.1.eq_of_same]
      exact same_self h.1.settings h.1.depth
  have hself : Beside (fun _ => Eq) P b.settings b.depth b b := ⟨same_self rfl rfl, hb⟩
  exact (simulates_heed hP hheed source duration values b b hself).eq
    fun s t hst => hst.1.eq_of_same

/-- No instance of the status on the target has expired. -/
def Swept (target status : String) (b : Battle) : Prop :=
  ∀ s ∈ b.statusesOf target, s.key = status → s.isExpired b.now = false

theorem kept_swept : Kept (Swept target status) where
  other h _ _ _ _ := h
  alter h key f hf := by
    intro s hs
    rw [statusesOf_alter_of_eq hf] at hs
    exact h s hs
  append h key t ht := by
    intro s hs hk
    obtain ⟨x, hx, hs⟩ := mem_statusesOf.1 hs
    rw [combatant?_alter] at hx
    split at hx
    · obtain ⟨y, hy, rfl⟩ := Option.map_eq_some_iff.1 hx
      rcases List.mem_append.1 hs with hs | hs
      · exact h s (mem_statusesOf.2 ⟨y, hy, hs⟩) hk
      · exact List.mem_singleton.1 hs ▸ ht
    · exact h s (mem_statusesOf.2 ⟨x, hx, hs⟩) hk
  prolong h other key duration := by
    intro s hs hk
    rw [statusesOf_prolong] at hs
    split at hs
    · next hother =>
      rcases mem_refreshFirst hs with hs | hs
      · exact h s (hother ▸ hs) hk
      · exact isExpired_of_removalTime hs
    · exact h s hs hk

theorem Swept.purged_eq (h : Swept target status b) {x : Combatant}
    (there : b.combatant? target = some x) : x.purged status b.now = x := by
  unfold Combatant.purged
  rw [unexpired_eq_self fun s hs => h s (mem_statusesOf.2 ⟨x, there, hs⟩)]

/-- Without expired instances none decides anything. -/
theorem Swept.not_swayed (h : Swept target status b) (r : Resolver) (source : String)
    (values : List Float) : swayed r target status source values b = false := by
  cases known : b.effects.get? status with
  | none => exact swayed_of_unknown known
  | some e =>
    cases there : b.combatant? target with
    | none => exact swayed_of_absent there
    | some x =>
      rw [swayed_eq known there, h.purged_eq there]
      cases e.stacking with
      | refresh =>
        cases hs : x.status? status with
        | none => rfl
        | some s =>
          obtain ⟨hmem, hkey⟩ := Combatant.mem_of_status? hs
          exact h s (mem_statusesOf.2 ⟨x, there, hmem⟩) hkey
      | none => exact Bool.and_not_self _
      | independent =>
        dsimp only
        cases mayStack r e target source values (x.statusCount status) b with
        | ok room _ => cases room <;> rfl
        | error _ _ => rfl

/-- They decide nothing about a status that refreshes or does not stack unless they decide the
application itself: its formulas are evaluated only where no instance is there. -/
theorem unswayed_of_single {e : StatusEffect} (known : b.effects.get? status = some e)
    (kind : e.stacking ≠ .independent)
    (h : swayed b.below target status source values b = false) :
    b.Unswayed target status source duration values := by
  cases there : b.combatant? target with
  | none =>
    have hswept : Swept target status b := by
      intro s hs
      obtain ⟨x, hx, -⟩ := mem_statusesOf.1 hs
      rw [there] at hx
      cases hx
    exact unswayed_of_kept kept_swept (fun _ hc => hc.not_swayed) hswept
  | some x =>
    cases has : x.hasStatus status with
    | false =>
      have hswept : Swept target status b := by
        intro s hs hk
        rw [statusesOf_of_some there] at hs
        exact absurd (Combatant.hasStatus_of_mem hs hk) (has ▸ Bool.false_ne_true)
      exact unswayed_of_kept kept_swept (fun _ hc => hc.not_swayed) hswept
    | true =>
      intro instead
      rw [swayed_eq known there] at h
      unfold heed
      rw [swayed_eq known there]
      cases hkind : e.stacking with
      | refresh =>
        rw [hkind] at h
        rw [if_neg (by simp [h]), inflict_refresh known there hkind has,
          inflict_refresh known there hkind has]
      | none =>
        rw [hkind] at h
        rw [if_neg (by simp [h]), inflict_none known there hkind has,
          inflict_none known there hkind has]
      | independent => exact absurd hkind kind

/-- Formulas that act on no battle are evaluated without the applications that could be replaced. -/
theorem resolve_heeding (instead : (source : String) → Float → List Float → Action Battle Bool)
    (target status : String) (n : Nat) {x : Expr} (hx : x.Quiet) :
    x.resolve (heeding instead target status n) = x.resolve (world n) := by
  have hworld : heeding instead target status n =
      (world n).acting (heeding instead target status n) := by
    cases n <;> rfl
  rw [hworld, hx.resolve_acting]

/-- The formulas by which the status is applied act on no battle. -/
def StatusEffect.Quiet (e : StatusEffect) : Prop :=
  (∀ limit ∈ e.maxStacks, limit.Quiet) ∧ e.interval.Quiet

section Quiet

variable {r r' : Resolver} (hr : ∀ x : Expr, x.Quiet → r x = r' x) {e : StatusEffect}
  (he : e.Quiet)

include hr

theorem resolveStatus_quiet {x : Expr} (hx : x.Quiet) (source target : String)
    (values : List Float) :
    resolveStatus r x source target values = resolveStatus r' x source target values := by
  unfold resolveStatus
  cases hbound : x.bindStatus source target values with
  | error err => rfl
  | ok y => exact hr y (hx.of_bindStatus hbound)

include he

theorem mayStack_quiet (target source : String) (values : List Float) (count : Nat) :
    mayStack r e target source values count = mayStack r' e target source values count := by
  unfold mayStack
  cases hlimit : e.maxStacks with
  | none => rfl
  | some limit =>
    dsimp only
    rw [resolveStatus_quiet hr (he.1 limit hlimit)]

theorem addStatus_quiet (target source : String) (duration : Float) (values : List Float) :
    addStatus r e target source duration values =
      addStatus r' e target source duration values := by
  unfold addStatus
  rw [resolveStatus_quiet hr he.2]

end Quiet

/-- They decide nothing about a status that stacks, either, if its formulas act on no battle and
they do not decide the application itself. -/
theorem unswayed_of_quiet {e : StatusEffect} (known : b.effects.get? status = some e)
    (kind : e.stacking = .independent) (quiet : e.Quiet)
    (h : swayed b.below target status source values b = false) :
    b.Unswayed target status source duration values := by
  intro instead
  have hr (x : Expr) (hx : x.Quiet) :
      x.resolve (heeding instead target status (b.levels - 1)) = b.below x :=
    resolve_heeding instead target status (b.levels - 1) hx
  cases there : b.combatant? target with
  | none =>
    unfold heed
    rw [swayed_of_absent there, if_neg (by simp), inflict_of_absent known there,
      inflict_of_absent known there]
  | some x =>
    have hsame : swayed (fun x => x.resolve (heeding instead target status (b.levels - 1))) target
        status source values b = false := by
      rw [swayed_eq known there, kind] at h ⊢
      rwa [mayStack_quiet hr quiet, mayStack_quiet hr quiet]
    unfold heed
    rw [if_neg (by simp [hsame]), inflict_independent known there kind,
      inflict_independent known there kind, mayStack_quiet hr quiet, addStatus_quiet hr quiet]

/-- They decide nothing at all about a status that stacks without limit. -/
theorem unswayed_of_unlimited {e : StatusEffect} (known : b.effects.get? status = some e)
    (kind : e.stacking = .independent) (unlimited : e.maxStacks = none) :
    b.Unswayed target status source duration values := by
  refine unswayed_of_kept (P := fun c => c.effects.get? status = some e) ?_ ?_ known
  · exact ⟨fun h _ _ _ _ => h, fun h _ _ _ => h, fun h _ _ _ => h, fun h _ _ _ => h⟩
  · intro c hc r source values
    cases there : c.combatant? target with
    | none => exact swayed_of_absent there
    | some x =>
      rw [swayed_eq hc there, kind]
      unfold mayStack
      rw [unlimited]
      rfl

end Unswayed

end Skirmish.Battle
