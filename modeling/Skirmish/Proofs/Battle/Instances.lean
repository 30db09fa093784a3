import Mathlib.Data.List.Nodup
import Skirmish.Proofs.Battle.Course

/-!
# Instances of statuses

What becomes of the statuses of combatants while formulas and components act on a battle.

1. `Numbered`: the instances on a combatant have ids of their own, all of them given out already.
2. `Tends`: evolutions and the work of a tick leave every instance where it is, change nothing of it
   but its end, and add instances behind that have not ticked yet.
3. `survives_tick`, `origin_tick`: which statuses there are after a tick, and how they are stamped.
4. `stamped_ticks`: after ticks of several combatants what was due is stamped.
-/

namespace Skirmish.Battle

open Skirmish.Formula

/-! ## The statuses of a combatant -/

section Statuses

variable {b c : Battle} {key other : String} {f : Combatant → Combatant}

theorem statusesOf_congr (h : (b.combatant? key).map (·.statuses) =
    (c.combatant? key).map (·.statuses)) : b.statusesOf key = c.statusesOf key := by
  unfold statusesOf
  rw [h]

theorem mem_statusesOf {s : ActiveStatus} :
    s ∈ b.statusesOf key ↔ ∃ x, b.combatant? key = some x ∧ s ∈ x.statuses := by
  unfold statusesOf
  cases b.combatant? key <;> simp

/-- A change of one combatant that puts no status on it where there are none. -/
theorem statusesOf_alter {g : List ActiveStatus → List ActiveStatus} (hg : g [] = [])
    (hf : ∀ x, (f x).statuses = g x.statuses) :
    (b.alter key f).statusesOf other =
      if other = key then g (b.statusesOf key) else b.statusesOf other := by
  unfold statusesOf
  rw [combatant?_alter]
  by_cases ho : other = key
  · rw [if_pos ho, if_pos ho, ho]
    cases b.combatant? key with
    | none => exact hg.symm
    | some x => exact hf x
  · rw [if_neg ho, if_neg ho]

theorem statusesOf_alter_of_eq (hf : ∀ x, (f x).statuses = x.statuses) :
    (b.alter key f).statusesOf other = b.statusesOf other := by
  rw [statusesOf_alter (g := id) rfl hf]
  split
  · next ho => rw [ho]; rfl
  · rfl

theorem statusesOf_undergo (e : Event) (logged : Bool) :
    (b.undergo e logged).statusesOf key = b.statusesOf key := by
  refine statusesOf_congr ?_
  rw [combatant?_undergo, Option.map_map]
  refine congrArg (fun f => Option.map f (b.combatant? key)) (funext fun x => ?_)
  show (if _ then _ else _ : Combatant).statuses = x.statuses
  split <;> rfl

theorem statusesOf_prolong (target status : String) (duration : Float) :
    (b.prolong target status duration).statusesOf key =
      if key = target then refreshFirst status (removalTime b.now duration) (b.statusesOf target)
      else b.statusesOf key :=
  statusesOf_alter rfl fun _ => rfl

theorem statusesOf_afflict {target : String} {s : ActiveStatus} {x : Combatant}
    (there : b.combatant? target = some x) :
    (b.afflict target s).statusesOf key =
      if key = target then b.statusesOf target ++ [s] else b.statusesOf key := by
  unfold statusesOf
  rw [combatant?_afflict]
  by_cases hk : key = target
  · rw [if_pos hk, if_pos hk, hk, there]
    rfl
  · rw [if_neg hk, if_neg hk]

end Statuses

/-! ## Ids -/

/-- The ids of the statuses of a combatant. -/
def idsOf (b : Battle) (key : String) : List Nat := (b.statusesOf key).map (·.id)

/-- The statuses of each combatant have ids of their own, all of them given out. -/
structure Numbered (b : Battle) : Prop where
  nodup : ∀ key, (b.idsOf key).Nodup
  lt : ∀ key, ∀ id ∈ b.idsOf key, id < b.nextStatusId

section Numbering

variable {silent : Bool} {b c : Battle}

theorem Numbered.of_sublist (h : Numbered b) (hids : ∀ key, (c.idsOf key).Sublist (b.idsOf key))
    (hnext : b.nextStatusId ≤ c.nextStatusId) : Numbered c where
  nodup key := (h.nodup key).sublist (hids key)
  lt key id hid := Nat.lt_of_lt_of_le (h.lt key id ((hids key).subset hid)) hnext

theorem Numbered.of_statuses (h : Numbered b) (hs : ∀ key, c.statusesOf key = b.statusesOf key)
    (hnext : b.nextStatusId ≤ c.nextStatusId) : Numbered c := by
  refine h.of_sublist (fun key => ?_) hnext
  unfold idsOf
  rw [hs]

theorem Numbered.id_lt (h : Numbered b) {key : String} {s : ActiveStatus}
    (hs : s ∈ b.statusesOf key) : s.id < b.nextStatusId :=
  h.lt key s.id (List.mem_map.2 ⟨s, hs, rfl⟩)

theorem Numbered.eq_of_id (h : Numbered b) {key : String} {s t : ActiveStatus}
    (hs : s ∈ b.statusesOf key) (ht : t ∈ b.statusesOf key) (hid : s.id = t.id) : s = t :=
  List.inj_on_of_nodup_map (h.nodup key) hs ht hid

theorem ids_refreshFirst (key : String) (removal : Option Timestamp) (l : List ActiveStatus) :
    (refreshFirst key removal l).map (·.id) = l.map (·.id) := by
  have h (l : List ActiveStatus) : l.map (·.id) = (l.map ActiveStatus.endless).map (·.id) := by
    rw [List.map_map]
    rfl
  rw [h, map_endless_refreshFirst, ← h]

theorem idsOf_prolong (b : Battle) (target status : String) (duration : Float) (key : String) :
    (b.prolong target status duration).idsOf key = b.idsOf key := by
  unfold idsOf
  rw [statusesOf_prolong]
  split
  · next hk => rw [hk, ids_refreshFirst]
  · rfl

theorem idsOf_afflict {target : String} {s : ActiveStatus} {x : Combatant}
    (there : b.combatant? target = some x) (key : String) :
    (b.afflict target s).idsOf key =
      if key = target then b.idsOf target ++ [s.id] else b.idsOf key := by
  unfold idsOf
  rw [statusesOf_afflict there]
  split
  · exact List.map_append
  · rfl

theorem Numbered.prolong (h : Numbered b) (target status : String) (duration : Float) :
    Numbered (b.prolong target status duration) := by
  refine h.of_sublist (fun key => ?_) (Nat.le_refl _)
  rw [idsOf_prolong]

theorem Numbered.afflict (h : Numbered b) {target : String} {s : ActiveStatus} {x : Combatant}
    (there : b.combatant? target = some x) (hid : s.id = b.nextStatusId) :
    Numbered (b.afflict target s) := by
  have hnext : (b.afflict target s).nextStatusId = b.nextStatusId + 1 := rfl
  constructor
  · intro key
    rw [idsOf_afflict there]
    split
    · refine List.nodup_append.2 ⟨h.nodup target, List.nodup_singleton _, fun id hmem n hn => ?_⟩
      have hlt := h.lt target id hmem
      rw [List.mem_singleton.1 hn]
      omega
    · exact h.nodup key
  · intro key id hmem
    rw [idsOf_afflict there] at hmem
    rw [hnext]
    split at hmem
    · rcases List.mem_append.1 hmem with hmem | hmem
      · have hlt := h.lt target id hmem
        omega
      · rw [List.mem_singleton.1 hmem]
        omega
    · have hlt := h.lt key id hmem
      omega

theorem Evolves.numbered (h : Evolves silent b c) (hb : Numbered b) : Numbered c := by
  induction h with
  | refl => exact hb
  | trans _ _ ih ih' => exact ih' (ih hb)
  | roll => exact hb.of_statuses (fun _ => rfl) (Nat.le_refl _)
  | @event b e logged there told =>
    have hnext : (b.undergo e logged).nextStatusId = b.nextStatusId := by
      obtain ⟨combatants, log, heq⟩ := undergo_eq b e logged
      rw [heq]
    exact hb.of_statuses (fun _ => statusesOf_undergo e logged) (Nat.le_of_eq hnext.symm)
  | nested _ _ ih =>
    have hin := ih (hb.of_statuses (fun _ => rfl) (Nat.le_refl _))
    exact hin.of_statuses (fun _ => rfl) (Nat.le_refl _)
  | refresh duration => exact hb.prolong _ _ duration
  | inflict _ _ _ _ _ there _ inner ih =>
    obtain ⟨y, hy, -⟩ := inner.frame.exists_of_some there
    exact (ih hb).afflict hy rfl

end Numbering

/-! ## What is retained -/

/-- Every instance stays where it is and changes at most its end; behind them stand instances that
never ticked, with ids from `first` up to but not including `next`. -/
def Retains (first next : Nat) (l l' : List ActiveStatus) : Prop :=
  ∃ added : List ActiveStatus,
    l'.map ActiveStatus.endless = l.map ActiveStatus.endless ++ added ∧
      ∀ s ∈ added, first ≤ s.id ∧ s.id < next ∧ s.lastTick = none

namespace Retains

variable {first middle next : Nat} {l l' l'' : List ActiveStatus}

theorem refl (first next : Nat) (l : List ActiveStatus) : Retains first next l l :=
  ⟨[], (List.append_nil _).symm, nofun⟩

theorem trans (h : Retains first middle l l') (k : Retains middle next l' l'')
    (hfirst : first ≤ middle) (hnext : middle ≤ next) : Retains first next l l'' := by
  obtain ⟨added, hadded, hid⟩ := h
  obtain ⟨added', hadded', hid'⟩ := k
  refine ⟨added ++ added', by rw [hadded', hadded, List.append_assoc], fun s hs => ?_⟩
  rcases List.mem_append.1 hs with hs | hs
  · obtain ⟨hle, hlt, hlast⟩ := hid s hs
    exact ⟨hle, by omega, hlast⟩
  · obtain ⟨hle, hlt, hlast⟩ := hid' s hs
    exact ⟨by omega, hlt, hlast⟩

/-- Who was there stays. -/
theorem exists_of_mem (h : Retains first next l l') {s : ActiveStatus} (hs : s ∈ l) :
    ∃ s' ∈ l', s'.endless = s.endless := by
  obtain ⟨added, hadded, -⟩ := h
  have hmem : s.endless ∈ l'.map ActiveStatus.endless := by
    rw [hadded]
    exact List.mem_append_left _ (List.mem_map.2 ⟨s, hs, rfl⟩)
  exact List.mem_map.1 hmem

/-- Who is there was there, or never ticked. -/
theorem origin (h : Retains first next l l') {s' : ActiveStatus} (hs : s' ∈ l') :
    (∃ s ∈ l, s'.endless = s.endless) ∨ first ≤ s'.id ∧ s'.lastTick = none := by
  obtain ⟨added, hadded, hid⟩ := h
  have hmem : s'.endless ∈ l.map ActiveStatus.endless ++ added := by
    rw [← hadded]
    exact List.mem_map.2 ⟨s', hs, rfl⟩
  rcases List.mem_append.1 hmem with hmem | hmem
  · obtain ⟨s, hs, heq⟩ := List.mem_map.1 hmem
    exact .inl ⟨s, hs, heq.symm⟩
  · obtain ⟨hle, -, hlast⟩ := hid _ hmem
    exact .inr ⟨hle, hlast⟩

end Retains

/-- Everyone's statuses are retained, and new ones have ids of their own. -/
structure Tends (b c : Battle) : Prop where
  nextStatusId : b.nextStatusId ≤ c.nextStatusId
  statuses : ∀ key,
    Retains b.nextStatusId c.nextStatusId (b.statusesOf key) (c.statusesOf key)
  numbered : Numbered b → Numbered c

section Tending

variable {silent : Bool} {b c d : Battle}

theorem Tends.of_statuses (hs : ∀ key, c.statusesOf key = b.statusesOf key)
    (hnext : c.nextStatusId = b.nextStatusId) : Tends b c where
  nextStatusId := Nat.le_of_eq hnext.symm
  statuses key := by
    rw [hs]
    exact .refl ..
  numbered h := h.of_statuses hs (Nat.le_of_eq hnext.symm)

theorem Tends.trans (h : Tends b c) (k : Tends c d) : Tends b d where
  nextStatusId := Nat.le_trans h.nextStatusId k.nextStatusId
  statuses key := (h.statuses key).trans (k.statuses key) h.nextStatusId k.nextStatusId
  numbered hb := k.numbered (h.numbered hb)

theorem Evolves.tends (h : Evolves silent b c) : Tends b c := by
  refine ⟨h.frame.nextStatusId, fun key => ?_, h.numbered⟩
  have hkey := h.frame.combatants key
  unfold statusesOf
  generalize b.combatant? key = x at hkey ⊢
  generalize c.combatant? key = y at hkey ⊢
  cases hkey with
  | none => exact .refl ..
  | some hxy => exact hxy.statuses

theorem Works.tends (h : Works silent b c) : Tends b c := by
  induction h with
  | trans _ _ ih ih' => exact ih.trans ih'
  | evolve h => exact h.tends
  | modify b key stat amount =>
    exact .of_statuses (fun _ => statusesOf_alter_of_eq fun _ => rfl) rfl

theorem Works.now_eq (h : Works silent b c) : c.now = b.now := by
  induction h with
  | trans _ _ ih ih' => exact ih'.trans ih
  | evolve h => exact h.frame.now
  | modify => rfl

end Tending

/-! ## Ticks -/

/-- The same instance, apart from its end and its stamp. -/
structure ActiveStatus.Same (s s' : ActiveStatus) : Prop where
  id : s'.id = s.id
  effect : s'.effect = s.effect
  source : s'.source = s.source
  interval : s'.interval = s.interval
  values : s'.values = s.values

theorem ActiveStatus.Same.refl (s : ActiveStatus) : s.Same s := ⟨rfl, rfl, rfl, rfl, rfl⟩

theorem ActiveStatus.Same.trans {s t u : ActiveStatus} (h : s.Same t) (k : t.Same u) : s.Same u :=
  ⟨k.id.trans h.id, k.effect.trans h.effect, k.source.trans h.source,
    k.interval.trans h.interval, k.values.trans h.values⟩

theorem same_of_endless {s s' : ActiveStatus} (h : s'.endless = s.endless) :
    s.Same s' ∧ s'.lastTick = s.lastTick := by
  cases s
  cases s'
  simp only [ActiveStatus.endless, ActiveStatus.mk.injEq, true_and] at h
  obtain ⟨hid, heffect, hsource, hlast, hinterval, hvalues⟩ := h
  exact ⟨⟨hid, heffect, hsource, hinterval, hvalues⟩, hlast⟩

theorem same_stamped (now : Timestamp) (ids : List Nat) (s : ActiveStatus) :
    s.Same (if s.id ∈ ids then { s with lastTick := some now } else s) := by
  split
  · exact ⟨rfl, rfl, rfl, rfl, rfl⟩
  · exact .refl s

theorem statusesOf_sweep (b : Battle) (now : Timestamp) (key other : String) :
    (b.alter key (sweep now)).statusesOf other =
      if other = key then (b.statusesOf key).filter (!·.isExpired now) else b.statusesOf other :=
  statusesOf_alter rfl fun _ => rfl

theorem statusesOf_stamp (b : Battle) (now : Timestamp) (ids : List Nat) (key other : String) :
    (b.alter key (stamp now ids)).statusesOf other =
      if other = key then (b.statusesOf key).map fun s =>
        if s.id ∈ ids then { s with lastTick := some now } else s
      else b.statusesOf other :=
  statusesOf_alter rfl fun _ => rfl

theorem mem_runIds {now : Timestamp} {l : List ActiveStatus} {id : Nat} :
    id ∈ runIds now l ↔ ∃ s ∈ l, s.id = id ∧ s.isRun now = true := by
  unfold runIds
  rw [List.mem_map]
  constructor
  · rintro ⟨s, hs, hid⟩
    exact ⟨s, (List.mem_filter.1 hs).1, hid, (List.mem_filter.1 hs).2⟩
  · rintro ⟨s, hs, hid, hrun⟩
    exact ⟨s, List.mem_filter.2 ⟨hs, hrun⟩, hid⟩

section Ticking

variable {b : Battle} {key other : String} {s s' : ActiveStatus}

/-- The id of a status is among those that are run exactly if that status is. -/
theorem Numbered.mem_runIds_iff (h : Numbered b) (hs : s ∈ b.statusesOf key) {now : Timestamp} :
    s.id ∈ runIds now (b.statusesOf key) ↔ s.isRun now = true := by
  rw [mem_runIds]
  constructor
  · rintro ⟨t, ht, hid, hrun⟩
    rwa [h.eq_of_id ht hs hid] at hrun
  · exact fun hrun => ⟨s, hs, rfl, hrun⟩

theorem Numbered.lt_of_mem_runIds (h : Numbered b) {now : Timestamp} {id : Nat}
    (hid : id ∈ runIds now (b.statusesOf key)) : id < b.nextStatusId := by
  obtain ⟨s, hs, rfl, -⟩ := mem_runIds.1 hid
  exact h.id_lt hs

/-- What a tick does to the statuses of everyone: those whose end has passed are dropped from the
one who ticks, then statuses are retained, and last those that were run are stamped. -/
theorem exists_tick (h : Numbered b) (key : String) :
    ∃ c, Tends (b.alter key (sweep b.now)) c ∧ Numbered c ∧
      (tick b.below key b).2 = c.alter key (stamp b.now (runIds b.now (b.statusesOf key))) := by
  obtain ⟨c, hworks, htick⟩ := works_tick (keeps_below b true) key b rfl
  have htends := hworks.tends
  refine ⟨c, htends, htends.numbered (h.of_sublist (fun other => ?_) (Nat.le_refl _)), htick⟩
  unfold idsOf
  rw [statusesOf_sweep]
  split
  · next ho =>
    rw [ho]
    exact List.filter_sublist.map _
  · exact .refl _

theorem Numbered.tick (h : Numbered b) (key : String) : Numbered (tick b.below key b).2 := by
  obtain ⟨c, -, hnumbered, htick⟩ := exists_tick h key
  rw [htick]
  refine hnumbered.of_sublist (fun other => ?_) (Nat.le_refl _)
  unfold idsOf
  rw [statusesOf_stamp]
  split
  · next ho =>
    rw [ho, List.map_map]
    simp only [Function.comp_def, (same_stamped ..).id]
    exact .refl _
  · exact .refl _

theorem nextStatusId_tick (h : Numbered b) (key : String) :
    b.nextStatusId ≤ (tick b.below key b).2.nextStatusId := by
  obtain ⟨c, htends, -, htick⟩ := exists_tick h key
  rw [htick]
  exact htends.nextStatusId

theorem now_tick (b : Battle) (key : String) : (tick b.below key b).2.now = b.now := by
  obtain ⟨c, hworks, htick⟩ := works_tick (keeps_below b true) key b rfl
  rw [htick]
  exact hworks.now_eq

/-- A status whose end has not passed survives a tick. -/
theorem survives_tick (h : Numbered b) (hs : s ∈ b.statusesOf other)
    (hkept : ¬(other = key ∧ s.isExpired b.now = true)) :
    ∃ s' ∈ (tick b.below key b).2.statusesOf other, s.Same s' := by
  obtain ⟨c, htends, -, htick⟩ := exists_tick h key
  have hswept : s ∈ (b.alter key (sweep b.now)).statusesOf other := by
    rw [statusesOf_sweep]
    split
    · next ho =>
      subst ho
      have hexpired : ¬s.isExpired b.now = true := fun he => hkept ⟨rfl, he⟩
      exact List.mem_filter.2 ⟨hs, by simpa using hexpired⟩
    · exact hs
  obtain ⟨s', hs', heq⟩ := (htends.statuses other).exists_of_mem hswept
  obtain ⟨hsame, -⟩ := same_of_endless heq
  rw [htick, statusesOf_stamp]
  split
  · next ho =>
    subst ho
    exact ⟨_, List.mem_map.2 ⟨s', hs', rfl⟩, hsame.trans (same_stamped ..)⟩
  · exact ⟨s', hs', hsame⟩

/-- A status after a tick was there, had not passed its end and is stamped now if it was due, or
it is new. -/
theorem origin_tick (h : Numbered b) (hs' : s' ∈ (tick b.below key b).2.statusesOf other) :
    (∃ s ∈ b.statusesOf other, ¬(other = key ∧ s.isExpired b.now = true) ∧ s.Same s' ∧
        s'.lastTick = if other = key ∧ s.isDue b.now = true then some b.now else s.lastTick) ∨
      b.nextStatusId ≤ s'.id ∧ s'.lastTick = none := by
  obtain ⟨c, htends, -, htick⟩ := exists_tick h key
  rw [htick, statusesOf_stamp] at hs'
  by_cases ho : other = key
  · subst ho
    rw [if_pos rfl] at hs'
    obtain ⟨t, ht, rfl⟩ := List.mem_map.1 hs'
    rcases (htends.statuses other).origin ht with ⟨s, hs, heq⟩ | ⟨hid, hlast⟩
    · obtain ⟨hsame, hlast⟩ := same_of_endless heq
      rw [statusesOf_sweep, if_pos rfl] at hs
      obtain ⟨hs, hkept⟩ := List.mem_filter.1 hs
      have hkept : ¬s.isExpired b.now = true := by simpa using hkept
      refine .inl ⟨s, hs, fun hexpired => hkept hexpired.2, hsame.trans (same_stamped ..), ?_⟩
      have hrun : t.id ∈ runIds b.now (b.statusesOf other) ↔ s.isDue b.now = true := by
        rw [hsame.id, h.mem_runIds_iff hs, s.isRun_of_not_isExpired hkept]
      by_cases hdue : s.isDue b.now = true
      · rw [if_pos (hrun.2 hdue), if_pos ⟨rfl, hdue⟩]
      · rw [if_neg (hrun.not.2 hdue), if_neg fun hdue' => hdue hdue'.2, hlast]
    · have hnot : t.id ∉ runIds b.now (b.statusesOf other) := fun hmem => by
        have hlt := h.lt_of_mem_runIds hmem
        have hid' : b.nextStatusId ≤ t.id := hid
        omega
      rw [if_neg hnot]
      exact .inr ⟨hid, hlast⟩
  · rw [if_neg ho] at hs'
    rcases (htends.statuses other).origin hs' with ⟨s, hs, heq⟩ | hnew
    · obtain ⟨hsame, hlast⟩ := same_of_endless heq
      rw [statusesOf_sweep, if_neg ho] at hs
      exact .inl ⟨s, hs, fun h => ho h.1, hsame, by rw [if_neg fun h => ho h.1, hlast]⟩
    · exact .inr hnew

/-- A status after a tick whose id had been given out before is not new. -/
theorem origin_tick_of_lt (h : Numbered b) (hs' : s' ∈ (tick b.below key b).2.statusesOf other)
    (hlt : s'.id < b.nextStatusId) :
    ∃ s ∈ b.statusesOf other, ¬(other = key ∧ s.isExpired b.now = true) ∧ s.Same s' ∧
      s'.lastTick = if other = key ∧ s.isDue b.now = true then some b.now else s.lastTick :=
  (origin_tick h hs').resolve_right fun hnew => Nat.not_le.2 hlt hnew.1

theorem below_tick (b : Battle) (key : String) : (tick b.below key b).2.below = b.below := by
  have htick : Proceeds true b (tick b.below key b).2 := passes_tick (keeps_below b true) key b rfl
  exact htick.below_eq

/-- After the ticks of some combatants, an instance is stamped that was due or had been stamped at
that time already, unless nobody who carries it ticked. -/
theorem stamped_ticks (h : Numbered b) {keys : List String} {id : Nat} (hid : id < b.nextStatusId)
    (waits : ∀ s ∈ b.statusesOf other, s.id = id →
      s.isDue b.now = true ∨ s.lastTick = some b.now)
    (stamped : other ∉ keys → ∀ s ∈ b.statusesOf other, s.id = id → s.lastTick = some b.now) :
    ∀ s' ∈ (forEach keys (tick b.below) b).2.statusesOf other, s'.id = id →
      s'.lastTick = some b.now := by
  induction keys generalizing b with
  | nil => exact stamped List.not_mem_nil
  | cons key rest ih =>
    have hrest := ih (h.tick key) (Nat.lt_of_lt_of_le hid (nextStatusId_tick h key))
    rw [below_tick, now_tick] at hrest
    rw [forEach_cons]
    by_cases ho : other = key
    · have hnow (s' : ActiveStatus) (hs' : s' ∈ (tick b.below key b).2.statusesOf other)
          (hid' : s'.id = id) : s'.lastTick = some b.now := by
        obtain ⟨s, hs, -, hsame, hlast⟩ := origin_tick_of_lt h hs' (hid' ▸ hid)
        rw [hlast]
        by_cases hdue : s.isDue b.now = true
        · rw [if_pos ⟨ho, hdue⟩]
        · rw [if_neg fun h => hdue h.2]
          exact (waits s hs (hsame.id.symm.trans hid')).resolve_left hdue
      exact hrest (fun s' hs' hid' => .inr (hnow s' hs' hid')) fun _ => hnow
    · refine hrest (fun s' hs' hid' => ?_) fun hnot s' hs' hid' => ?_
      · obtain ⟨s, hs, -, hsame, hlast⟩ := origin_tick_of_lt h hs' (hid' ▸ hid)
        rw [if_neg fun h => ho h.1] at hlast
        unfold ActiveStatus.isDue
        rw [hlast, hsame.interval]
        exact waits s hs (hsame.id.symm.trans hid')
      · obtain ⟨s, hs, -, hsame, hlast⟩ := origin_tick_of_lt h hs' (hid' ▸ hid)
        rw [hlast, if_neg fun h => ho h.1]
        refine stamped (fun hmem => ?_) s hs (hsame.id.symm.trans hid')
        rcases List.mem_cons.1 hmem with hkey | hmem
        · exact ho hkey
        · exact hnot hmem

end Ticking

end Skirmish.Battle
