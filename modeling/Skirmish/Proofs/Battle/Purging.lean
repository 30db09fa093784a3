import Skirmish.Proofs.Battle.Expiry

/-!
# Applications and expired instances

The next tick of a combatant drops the instances whose end has passed. Until then they lie there as
the others do, and an application finds them.

1. `heedsAlike_purgeFirst`: where expired instances decide an application, let them be deleted
   first. Then a battle with them and the battle without them do the same.
2. `purge_inflict`: so if they decide nothing, deleting them before an application comes to deleting
   them afterwards.
3. `inflict_of_swayed`: what becomes of an application that they decide.
-/

namespace Skirmish.Battle

open Skirmish.Formula

/-! ## Deleting first, or afterwards -/

/-- The expired instances of the status on the target are missing in the second battle. -/
def Purges (target status : String) (now : Timestamp) : StatusRelation := fun key l l' =>
  l' = if key = target then unexpired status now l else l

section Purging

variable {S : Settings} {d : Nat} {b c : Battle} {now : Timestamp}
  {target status key other source : String} {duration : Float} {values : List Float}
  {r : Resolver}

theorem kept_now : Kept fun b => b.now = now :=
  ⟨fun h _ _ _ _ => h, fun h _ _ _ => h, fun h _ _ _ => h, fun h _ _ _ => h⟩

/-- The battle without the expired instances, beside the one with them. -/
abbrev Purging (target status : String) (now : Timestamp) (S : Settings) (d : Nat) :
    Battle → Battle → Prop :=
  Beside (Purges target status now) (fun b => b.now = now) S d

theorem purging_purge (b : Battle) (target status : String) :
    Purging target status b.now b.settings b.depth b (b.purge target status) := by
  refine ⟨⟨rfl, fun key => ?_, rfl, rfl⟩, rfl⟩
  unfold purge
  rw [combatant?_alter]
  cases b.combatant? key with
  | none => split <;> exact .none
  | some x =>
    by_cases hk : key = target
    · rw [if_pos hk]
      exact .some ⟨rfl, (if_pos hk).symm⟩
    · rw [if_neg hk]
      exact .some ⟨rfl, (if_neg hk).symm⟩

theorem CombatantsAlike.eq_purged {x y : Combatant}
    (h : CombatantsAlike (Purges target status now target) x y) : y = x.purged status now := by
  have hstatuses : y.statuses = unexpired status now x.statuses := h.statuses.trans (if_pos rfl)
  rw [h.eq, hstatuses]
  rfl

theorem CombatantsAlike.eq_of_purges {x y : Combatant}
    (h : CombatantsAlike (Purges target status now key) x y) (hkey : key ≠ target) : y = x := by
  have hstatuses : y.statuses = x.statuses := h.statuses.trans (if_neg hkey)
  rw [h.eq, hstatuses]

theorem eq_purge (h : Purging target status now S d b c) : c = b.purge target status := by
  have hcombatants : c.combatants = (b.purge target status).combatants := by
    refine Table.ext_get? fun key => ?_
    have hpurged := (combatant?_alter b target key (·.purged status b.now)).symm
    refine Eq.trans ?_ hpurged
    show c.combatant? key = _
    obtain ⟨hb, hc⟩ | ⟨x, y, hb, hc, hxy⟩ := h.1.cases_combatant? key
    · rw [hb, hc]
      split <;> rfl
    · rw [hb, hc, h.2]
      by_cases hk : key = target
      · subst hk
        rw [if_pos rfl, hxy.eq_purged]
        rfl
      · rw [if_neg hk, hxy.eq_of_purges hk]
  rw [h.1.eq, hcombatants]
  rfl

theorem swept_purge (b : Battle) (target status : String) :
    Swept target status (b.purge target status) := by
  intro s hs hk
  unfold purge at hs
  rw [statusesOf_alter (g := unexpired status b.now) rfl fun _ => rfl, if_pos rfl] at hs
  have hkept := (List.mem_filter.1 hs).2
  show s.isExpired b.now = false
  simpa [hk] using hkept

/-- A battle without such instances is beside itself. -/
theorem Swept.purging (h : Swept target status b) (hnow : b.now = now) (hs : b.settings = S)
    (hd : b.depth = d) : Purging target status now S d b b := by
  refine ⟨⟨rfl, fun key => ?_, hs, hd⟩, hnow⟩
  cases hx : b.combatant? key with
  | none => exact .none
  | some x =>
    refine .some ⟨rfl, ?_⟩
    unfold Purges
    split
    · next hk =>
      rw [unexpired_eq_self fun s hs => hnow ▸ h s (mem_statusesOf.2 ⟨x, hk ▸ hx, hs⟩)]
    · rfl

theorem Evolves.swept {silent : Bool} (h : Evolves silent b c) (hb : Swept target status b) :
    Swept target status c := by
  intro s hs hk
  refine eq_false_of_ne_true fun hexpired => ?_
  have hbefore := hb s (h.mem_of_isExpired hs hexpired) hk
  rw [← h.frame.now, hexpired] at hbefore
  cases hbefore

theorem alike_prolong (h : Purging target status now S d b c) (duration : Float)
    (hfirst : key = target → other = status → ∀ x, b.combatant? key = some x →
      (x.status? other).any (·.isExpired now) = false) :
    Alike (Purges target status now) S d (b.prolong key other duration)
      (c.prolong key other duration) := by
  unfold prolong
  rw [h.1.now_eq]
  refine h.1.alter_at (fun x y hx hxy => ⟨by rw [hxy.eq], ?_⟩) fun _ _ _ _ hl => hl
  have hl := hxy.statuses
  unfold Purges at hl ⊢
  split
  · next hk =>
    rw [if_pos hk] at hl
    rw [hl]
    refine (unexpired_refreshFirst (fun s hs => ?_) fun ho s hs => ?_).symm
    · exact h.2 ▸ isExpired_of_removalTime hs
    · have hx' := hfirst hk ho x hx
      have hfound : x.status? other = some s := hs
      rwa [hfound] at hx'
  · next hk => rw [hl, if_neg hk]

/-- What an application sees of both battles is the same, unless expired instances decide it. -/
theorem seen_of_purging (h : Purging target status now S d b c)
    (hswayed : ¬(key = target ∧ other = status ∧ swayed r key other source values b = true))
    (duration : Float) {e : StatusEffect} {x y : Combatant}
    (known : b.effects.get? other = some e) (there : b.combatant? key = some x)
    (hxy : CombatantsAlike (Purges target status now key) x y) :
    SeenAlike (Purges target status now) S d r key other source duration values b c e x y := by
  by_cases hk : key = target
  · subst hk
    rw [hxy.eq_purged]
    by_cases ho : other = status
    · subst ho
      have hnot : swayed r key other source values b = false :=
        eq_false_of_ne_true fun hs => hswayed ⟨rfl, rfl, hs⟩
      rw [← h.2]
      refine ⟨hasStatus_purged_of_not_swayed known there hnot, fun kind => ?_,
        mayStack_purged_of_not_swayed known there hnot⟩
      rw [h.2]
      refine alike_prolong h duration fun _ _ x' hx' => ?_
      rw [swayed_eq known hx', kind] at hnot
      exact h.2 ▸ hnot
    · have hcount : (x.purged status now).statusCount other = x.statusCount other :=
        Combatant.statusCount_purged_of_ne ho
      refine ⟨fun _ => Combatant.hasStatus_congr hcount, fun _ => ?_, fun _ => by rw [hcount]⟩
      exact alike_prolong h duration fun _ hother => absurd hother ho
  · rw [hxy.eq_of_purges hk]
    exact ⟨fun _ => rfl, fun _ => alike_prolong h duration fun hkey => absurd hkey hk,
      fun _ => rfl⟩

/-- Where no levels are left it does not matter how formulas would be evaluated. -/
theorem inflict_congr {r' : Resolver} (h : b.depth < b.settings.reentryLimit → r = r')
    (target status source : String) (duration : Float) (values : List Float) :
    inflict r target status source duration values b =
      inflict r' target status source duration values b := by
  by_cases hd : b.depth < b.settings.reentryLimit
  · rw [h hd]
  · exact eq_of_simulates (simulates_inflict (fun hlt => absurd hlt hd) blind_eq target status
      source duration values)

/-- In place of an application that expired instances decide: the application after they have been
deleted. -/
def purgeFirst (target status : String) (source : String) (duration : Float)
    (values : List Float) : Action Battle Bool := fun b =>
  inflict (b.purge target status).below target status source duration values
    (b.purge target status)

/-- With deletions in front of such applications, formulas do the same in both battles. -/
theorem heedsAlike_purgeFirst :
    HeedsAlike (Purges target status now) (fun b => b.now = now) S (purgeFirst target status) target
      status := by
  intro d r r' hr hr' key other source duration values b c h
  unfold heed
  by_cases hs : key = target ∧ other = status ∧ swayed r key other source values b = true
  · rw [if_pos hs]
    obtain ⟨rfl, rfl, -⟩ := hs
    have hc : c = b.purge key other := eq_purge h
    have hlevels : c.levels = S.reentryLimit - d := by
      unfold levels
      rw [h.1.settings_eq, h.1.depth_eq]
    have hbelow : inflict r' key other source duration values c =
        inflict c.below key other source duration values c := by
      refine inflict_congr (fun hd => ?_) ..
      rw [h.1.settings_eq, h.1.depth_eq] at hd
      rw [hr' hd]
      unfold below
      rw [hlevels]
    have hself {c' : Battle} (hc' : Evolves false c c') :
        Purging key other now S d c' c' :=
      (hc'.swept (hc ▸ swept_purge b key other)).purging
        (hc'.frame.now.trans (h.1.now_eq.trans h.2))
        (hc'.frame.settings.trans h.1.settings_eq) (hc'.frame.depth.trans h.1.depth_eq)
    have hevolves := evolves_inflict c key other source duration values
    unfold purgeFirst
    rw [hbelow, ← hc]
    cases hend : inflict c.below key other source duration values c with
    | ok room c' => exact .ok rfl (hself (after_of_ok hend ▸ hevolves))
    | error err c' => exact .error err (hself (after_of_error hend ▸ hevolves))
  · rw [if_neg hs]
    refine sameEnd_inflict kept_now hr (fun {b c s} hbc hfresh => ?_) h
      fun e x y known there hxy => seen_of_purging h hs duration known there hxy
    refine hbc.1.alter fun x y hxy => ⟨by rw [hxy.eq], ?_⟩
    have hl := hxy.statuses
    unfold Purges at hl ⊢
    split
    · next hk => rw [hl, if_pos hk, unexpired_append (hbc.2 ▸ hfresh)]
    · next hk => rw [hl, if_neg hk]

end Purging

/-! ## The operation -/

/-- The end of an action, with another battle in place of the one that it leaves. -/
def endingIn {ε α : Type} (f : Battle → Battle) :
    EStateM.Result ε Battle α → EStateM.Result ε Battle α
  | .ok a b => .ok a (f b)
  | .error e b => .error e (f b)

section Operation

variable {b : Battle} {target status source : String} {duration : Float} {values : List Float}

theorem applyStatus_of_contains (h : b.contains target = true) :
    applyStatus target status source duration values b =
      act (inflict b.below target status source duration values) b := by
  unfold applyStatus
  rw [bind_of_ok (require_of_contains h)]
  rfl

theorem applyStatus_of_absent (h : ¬b.contains target = true) :
    applyStatus target status source duration values b =
      .error (.unknownEntity target) b := by
  unfold applyStatus
  exact bind_of_error (require_of_absent h)

/-- Deleting expired instances after an application comes to deleting them before. -/
theorem purge_inflict (h : b.Unswayed target status source duration values) :
    endingIn (purge target status) (inflict b.below target status source duration values b) =
      inflict (b.purge target status).below target status source duration values
        (b.purge target status) := by
  have hend := simulates_heed kept_now heedsAlike_purgeFirst source duration values b
    (b.purge target status) (purging_purge b target status)
  have hunswayed : heed (purgeFirst target status) target status
      (fun e => e.resolve (heeding (purgeFirst target status) target status
        (b.settings.reentryLimit - b.depth - 1))) target status source duration values b =
      inflict b.below target status source duration values b := h (purgeFirst target status)
  have hbelow : (b.purge target status).below =
      fun e => e.resolve (world (b.settings.reentryLimit - b.depth - 1)) := rfl
  rw [hunswayed] at hend
  rw [hbelow]
  obtain ⟨a, _, c, c', hc, hc', rfl, state⟩ | ⟨err, c, c', hc, hc', state⟩ := hend.ends
  · rw [hc, hc', eq_purge state]
    rfl
  · rw [hc, hc', eq_purge state]
    rfl

/-- Room is denied on account of a limit alone. -/
theorem limit_of_mayStack {r : Resolver} {e : StatusEffect} {count : Nat} {c : Battle}
    (h : mayStack r e target source values count b = .ok false c) :
    ∃ limit v, e.maxStacks = some limit ∧
      deeper (resolveStatus r limit source target values) b = .ok v c := by
  unfold mayStack at h
  cases hlimit : e.maxStacks with
  | none =>
    rw [hlimit] at h
    cases h
  | some limit =>
    rw [hlimit] at h
    obtain ⟨v, c', hv, h⟩ := bind_eq_ok h
    cases hn : v.asNumber with
    | error err =>
      rw [hn] at h
      cases h
    | ok n =>
      rw [hn] at h
      obtain rfl : c' = c := by injection h
      exact ⟨limit, v, rfl, hv⟩

/-- What becomes of an application that expired instances decide. -/
theorem inflict_of_swayed (duration : Float)
    (h : swayed b.below target status source values b = true) :
    ∃ e, b.effects.get? status = some e ∧ b.contains target = true ∧
      ((e.stacking = .refresh ∧ inflict b.below target status source duration values b =
          .ok true (b.prolong target status duration)) ∨
        (e.stacking = .none ∧
          inflict b.below target status source duration values b = .ok false b) ∨
        (e.stacking = .independent ∧ ∃ limit v c, e.maxStacks = some limit ∧
          deeper (resolveStatus b.below limit source target values) b = .ok v c ∧
          inflict b.below target status source duration values b = .ok false c)) := by
  obtain ⟨e, known⟩ : ∃ e, b.effects.get? status = some e :=
    Option.ne_none_iff_exists'.1 fun hnone => by
      rw [swayed_of_unknown hnone] at h
      cases h
  obtain ⟨x, there⟩ : ∃ x, b.combatant? target = some x :=
    Option.ne_none_iff_exists'.1 fun hnone => by
      rw [swayed_of_absent hnone] at h
      cases h
  refine ⟨e, known, contains_of_combatant? there, ?_⟩
  rw [swayed_eq known there] at h
  cases kind : e.stacking with
  | refresh =>
    rw [kind] at h
    obtain ⟨s, hs, -⟩ := (Option.any_eq_true _ _).1 h
    obtain ⟨hmem, hkey⟩ := Combatant.mem_of_status? hs
    exact .inl ⟨rfl, inflict_refresh known there kind (Combatant.hasStatus_of_mem hmem hkey)⟩
  | none =>
    rw [kind] at h
    exact .inr (.inl ⟨rfl, inflict_none known there kind (Bool.and_eq_true _ _ ▸ h).1⟩)
  | independent =>
    rw [kind] at h
    have hfull := (Bool.and_eq_true _ _ ▸ h).2
    refine .inr (.inr ⟨rfl, ?_⟩)
    rw [inflict_independent known there kind]
    cases hmay : mayStack b.below e target source values (x.statusCount status) b with
    | error err c =>
      rw [hmay] at hfull
      cases hfull
    | ok room c =>
      rw [hmay] at hfull
      obtain rfl : room = false := by simpa [gives] using hfull
      obtain ⟨limit, v, hlimit, hv⟩ := limit_of_mayStack hmay
      rw [bind_of_ok hmay]
      exact ⟨limit, v, c, hlimit, hv, rfl⟩

end Operation

/-- **Expired instances.** An application takes instances as they lie there, whether their end has
passed or not:

1. If expired instances of the status decide neither the application nor another one of it to the
   same target that its formulas set off, deleting them before the application or afterwards comes
   to the same: the answer or the fault, and the whole battle, with all other instances.
2. They decide nothing if they do not decide the application itself, as long as the status does not
   stack or the formulas by which it is applied act on no battle. About one that stacks without
   limit they never decide anything.
3. If they decide the application, the expired instance that stands first is put off, or nothing is
   done because of them, or no instance is added since they count. -/
theorem expired_instances (b : Battle) (target status source : String) (duration : Float)
    (values : List Float) :
    (b.Unswayed target status source duration values →
      endingIn (purge target status) (applyStatus target status source duration values b) =
        applyStatus target status source duration values (b.purge target status)) ∧
    (∀ e, b.effects.get? status = some e →
      (swayed b.below target status source values b = false →
        (e.stacking = .independent → e.Quiet) →
        b.Unswayed target status source duration values) ∧
      (e.stacking = .independent → e.maxStacks = none →
        b.Unswayed target status source duration values)) ∧
    (swayed b.below target status source values b = true →
      ∃ e, b.effects.get? status = some e ∧
        ((e.stacking = .refresh ∧ applyStatus target status source duration values b =
            .ok true (b.prolong target status duration)) ∨
          (e.stacking = .none ∧
            applyStatus target status source duration values b = .ok false b) ∨
          (e.stacking = .independent ∧ ∃ limit v c, e.maxStacks = some limit ∧
            deeper (resolveStatus b.below limit source target values) b = .ok v c ∧
            applyStatus target status source duration values b = .ok false c))) := by
  refine ⟨fun h => ?_, fun e known => ⟨fun h quiet => ?_, unswayed_of_unlimited known⟩,
    fun h => ?_⟩
  · have hcontains : (b.purge target status).contains target = b.contains target :=
      contains_alter ..
    by_cases there : b.contains target = true
    · rw [applyStatus_of_contains there, applyStatus_of_contains (hcontains.trans there)]
      have hinflict := purge_inflict h
      unfold act
      rw [← hinflict]
      cases inflict b.below target status source duration values b <;> rfl
    · rw [applyStatus_of_absent there, applyStatus_of_absent (hcontains ▸ there)]
      rfl
  · by_cases kind : e.stacking = .independent
    · exact unswayed_of_quiet known kind (quiet kind) h
    · exact unswayed_of_single known kind h
  · obtain ⟨e, known, there, hend⟩ := inflict_of_swayed duration h
    refine ⟨e, known, ?_⟩
    rw [applyStatus_of_contains there]
    unfold act
    rcases hend with ⟨kind, hend⟩ | ⟨kind, hend⟩ | ⟨kind, limit, v, c, hlimit, hv, hend⟩
    · exact .inl ⟨kind, by rw [hend]⟩
    · exact .inr (.inl ⟨kind, by rw [hend]⟩)
    · exact .inr (.inr ⟨kind, limit, v, c, hlimit, hv, by rw [hend]⟩)

/-- Two seconds after they were applied for one: another burn, of three, and another mark lie beside
the expired ones, but the expired stun keeps a new one away. -/
theorem expired_instances_burn :
    let b := run (new .standard) [.add "h" "H" .player,
      .addEffect ⟨"burn", .independent, some (.leaf (.number 3)), .leaf (.number 1), []⟩,
      .addEffect ⟨"mark", .independent, none, .leaf (.number 1), []⟩,
      .addEffect ⟨"stun", .none, none, .leaf (.number 1), []⟩,
      .move (.apply "h" "burn" "h" 1 []), .move (.apply "h" "mark" "h" 1 []),
      .move (.apply "h" "stun" "h" 1 []), .move (.advance 2000)]
    endingIn (purge "h" "burn") (applyStatus "h" "burn" "h" 1 [] b) =
        applyStatus "h" "burn" "h" 1 [] (b.purge "h" "burn") ∧
      endingIn (purge "h" "mark") (applyStatus "h" "mark" "h" 1 [] b) =
        applyStatus "h" "mark" "h" 1 [] (b.purge "h" "mark") ∧
      ∃ e, b.effects.get? "stun" = some e ∧
        ((e.stacking = .refresh ∧ applyStatus "h" "stun" "h" 1 [] b =
            .ok true (b.prolong "h" "stun" 1)) ∨
          (e.stacking = .none ∧ applyStatus "h" "stun" "h" 1 [] b = .ok false b) ∨
          (e.stacking = .independent ∧ ∃ limit v c, e.maxStacks = some limit ∧
            deeper (resolveStatus b.below limit "h" "h" []) b = .ok v c ∧
            applyStatus "h" "stun" "h" 1 [] b = .ok false c)) := by
  intro b
  have hnumber (x : Float) : (Expr.leaf (.number x)).Quiet := fun f hf => absurd hf List.not_mem_nil
  have hquiet : StatusEffect.Quiet
      ⟨"burn", .independent, some (.leaf (.number 3)), .leaf (.number 1), []⟩ :=
    ⟨fun limit hlimit => Option.some.inj hlimit ▸ hnumber 3, hnumber 1⟩
  have hburn := ((expired_instances b "h" "burn" "h" 1 []).2.1 _ rfl).1 (by decide +kernel)
    fun _ => hquiet
  have hmark := ((expired_instances b "h" "mark" "h" 1 []).2.1
    ⟨"mark", .independent, none, .leaf (.number 1), []⟩ rfl).2 rfl rfl
  exact ⟨(expired_instances b "h" "burn" "h" 1 []).1 hburn,
    (expired_instances b "h" "mark" "h" 1 []).1 hmark,
    (expired_instances b "h" "stun" "h" 1 []).2.2 (by decide +kernel)⟩

/-- Two seconds after a status was applied for one, a new application finds it: the status that does
not stack is not added, the one that stacks once is not added either, and the one that refreshes is
put off. Without the expired instance a new one is added each time. -/
theorem expired_instances_found :
    let b (stacking : Stacking) := run (new .standard) [.add "h" "H" .player,
      .addEffect ⟨"stun", stacking, some (.leaf (.number 1)), .leaf (.number 1), []⟩,
      .move (.apply "h" "stun" "h" 1 []), .move (.advance 2000)]
    (gives false (applyStatus "h" "stun" "h" 1 [] (b .none)) = true ∧
        gives true (applyStatus "h" "stun" "h" 1 [] ((b .none).purge "h" "stun")) = true) ∧
      (gives false (applyStatus "h" "stun" "h" 1 [] (b .independent)) = true ∧
        gives true (applyStatus "h" "stun" "h" 1 [] ((b .independent).purge "h" "stun")) = true) ∧
      (after (applyStatus "h" "stun" "h" 1 []) (b .refresh)).idsOf "h" = [0] ∧
        (after (applyStatus "h" "stun" "h" 1 []) ((b .refresh).purge "h" "stun")).idsOf "h" =
          [1] := by
  decide +kernel

end Skirmish.Battle
