import Skirmish.Proofs.Battle.Evolution

/-!
# The frame of formulas

`Frame b c`: the battle `c` is `b` except for the dice, for records added to the log, for the hit
points of combatants, for the ends of statuses, and for statuses added behind those that were
there. `Evolves.frame`: formulas change nothing else.
-/

namespace Skirmish.Battle

open Skirmish.Formula

/-! ## One combatant -/

/-- A status apart from its end. -/
def ActiveStatus.endless (s : ActiveStatus) : ActiveStatus := { s with removal := none }

/-- The combatant `y` is `x` except for hit points, for the ends of statuses, and for statuses that
were added and never ticked, with ids from `first` up to but not including `next`. -/
structure Combatant.Frame (hp : String) (first next : Nat) (x y : Combatant) : Prop where
  name : y.name = x.name
  side : y.side = x.side
  base : ∀ stat, stat ≠ hp → y.baseStat? stat = x.baseStat? stat
  derived : ∀ stat, stat ≠ hp → y.stat? stat = x.stat? stat
  statuses : ∃ added : List ActiveStatus,
    y.statuses.map ActiveStatus.endless = x.statuses.map ActiveStatus.endless ++ added ∧
      ∀ s ∈ added, first ≤ s.id ∧ s.id < next ∧ s.lastTick = none

namespace Combatant.Frame

variable {hp : String} {first middle next : Nat} {x y z : Combatant}

theorem refl (hp : String) (first next : Nat) (x : Combatant) : Frame hp first next x x where
  name := rfl
  side := rfl
  base _ _ := rfl
  derived _ _ := rfl
  statuses := ⟨[], (List.append_nil _).symm, nofun⟩

theorem trans (h : Frame hp first middle x y) (k : Frame hp middle next y z)
    (hfirst : first ≤ middle) (hnext : middle ≤ next) : Frame hp first next x z where
  name := k.name.trans h.name
  side := k.side.trans h.side
  base stat hs := (k.base stat hs).trans (h.base stat hs)
  derived stat hs := (k.derived stat hs).trans (h.derived stat hs)
  statuses := by
    obtain ⟨added, hadded, hid⟩ := h.statuses
    obtain ⟨added', hadded', hid'⟩ := k.statuses
    refine ⟨added ++ added', by rw [hadded', hadded, List.append_assoc], fun s hs => ?_⟩
    rcases List.mem_append.1 hs with hs | hs
    · have := hid s hs
      exact ⟨this.1, by omega, this.2.2⟩
    · have := hid' s hs
      exact ⟨by omega, this.2⟩

theorem of_statuses {l : List ActiveStatus}
    (h : ∃ added : List ActiveStatus,
      l.map ActiveStatus.endless = x.statuses.map ActiveStatus.endless ++ added ∧
        ∀ s ∈ added, first ≤ s.id ∧ s.id < next ∧ s.lastTick = none) :
    Frame hp first next x { x with statuses := l } where
  name := rfl
  side := rfl
  base _ _ := rfl
  derived _ _ := rfl
  statuses := h

/-- A change to hit points is within the frame. -/
theorem adjustPersistent (hp : String) (first next : Nat) (x : Combatant) (delta : Float) :
    Frame hp first next x (x.adjustPersistent hp delta) where
  name := rfl
  side := rfl
  base stat hs := by rw [baseStat?_adjustPersistent, if_neg (Ne.symm hs)]
  derived stat hs := by rw [stat?_adjustPersistent, if_neg (Ne.symm hs)]
  statuses := ⟨[], (List.append_nil _).symm, nofun⟩

end Combatant.Frame

theorem map_endless_refreshFirst (key : String) (removal : Option Timestamp)
    (l : List ActiveStatus) :
    (refreshFirst key removal l).map ActiveStatus.endless = l.map ActiveStatus.endless := by
  induction l with
  | nil => rfl
  | cons s rest ih =>
    unfold refreshFirst
    split
    · rfl
    · rw [List.map_cons, List.map_cons, ih]

/-! ## The whole battle -/

section Relations

variable {α : Type} {R S T : α → α → Prop} {x y z : Option α}

theorem rel_of_eq_map {f : α → α} (h : y = x.map f) (hf : ∀ a, R a (f a)) : Option.Rel R x y := by
  rw [h]
  cases x with
  | none => exact .none
  | some a => exact .some (hf a)

theorem rel_of_eq (h : y = x) (hr : ∀ a, R a a) : Option.Rel R x y := by
  rw [h]
  cases x with
  | none => exact .none
  | some a => exact .some (hr a)

theorem rel_mono (h : ∀ {a b}, R a b → S a b) (hxy : Option.Rel R x y) : Option.Rel S x y := by
  cases hxy with
  | none => exact .none
  | some hab => exact .some (h hab)

theorem rel_trans (h : ∀ {a b c}, R a b → S b c → T a c) (hxy : Option.Rel R x y)
    (hyz : Option.Rel S y z) : Option.Rel T x z := by
  cases hxy with
  | none => cases hyz; exact .none
  | some hab =>
    cases hyz with
    | some hbc => exact .some (h hab hbc)

theorem isSome_of_rel (h : Option.Rel R x y) : y.isSome = x.isSome := by
  cases h <;> rfl

theorem exists_of_rel (h : Option.Rel R x y) {a : α} (hx : x = some a) :
    ∃ b, y = some b ∧ R a b := by
  cases h with
  | none => cases hx
  | some hab => cases hx; exact ⟨_, rfl, hab⟩

end Relations

/-- The battle `c` is `b` except for what formulas may change. -/
structure Frame (b c : Battle) : Prop where
  settings : c.settings = b.settings
  vocabulary : c.vocabulary = b.vocabulary
  damageTypes : c.damageTypes = b.damageTypes
  effects : c.effects = b.effects
  skills : c.skills = b.skills
  now : c.now = b.now
  depth : c.depth = b.depth
  log : ∃ events : List Event, c.log = events.foldl Log.record b.log
  nextStatusId : b.nextStatusId ≤ c.nextStatusId
  combatants : ∀ key, Option.Rel
    (Combatant.Frame b.settings.hpStat b.nextStatusId c.nextStatusId)
    (b.combatant? key) (c.combatant? key)

namespace Frame

variable {b c d : Battle}

/-- Combatants that are changed within the frame, nothing else being changed but the dice, the log
and the ids. -/
theorem of_map (f : String → Combatant → Combatant)
    (hb : ∃ combatants dice log nextStatusId,
      c = { b with combatants, dice, log, nextStatusId })
    (log : ∃ events : List Event, c.log = events.foldl Log.record b.log)
    (hn : b.nextStatusId ≤ c.nextStatusId)
    (hc : ∀ key, c.combatant? key = (b.combatant? key).map (f key))
    (hf : ∀ key x,
      Combatant.Frame b.settings.hpStat b.nextStatusId c.nextStatusId x (f key x)) :
    Frame b c := by
  obtain ⟨combatants, dice, log', next, rfl⟩ := hb
  exact ⟨rfl, rfl, rfl, rfl, rfl, rfl, rfl, log, hn, fun key => rel_of_eq_map (hc key) (hf key)⟩

theorem refl (b : Battle) : Frame b b :=
  of_map (fun _ x => x) ⟨_, _, _, _, rfl⟩ ⟨[], rfl⟩ (Nat.le_refl _) (fun _ => by simp)
    fun _ x => .refl _ _ _ x

theorem trans (h : Frame b c) (k : Frame c d) : Frame b d where
  settings := k.settings.trans h.settings
  vocabulary := k.vocabulary.trans h.vocabulary
  damageTypes := k.damageTypes.trans h.damageTypes
  effects := k.effects.trans h.effects
  skills := k.skills.trans h.skills
  now := k.now.trans h.now
  depth := k.depth.trans h.depth
  log := by
    obtain ⟨events, hb⟩ := h.log
    obtain ⟨events', hc⟩ := k.log
    exact ⟨events ++ events', by rw [hc, hb, List.foldl_append]⟩
  nextStatusId := Nat.le_trans h.nextStatusId k.nextStatusId
  combatants key := by
    have hc := k.combatants key
    rw [h.settings] at hc
    exact rel_trans (fun hxy hyz => hxy.trans hyz h.nextStatusId k.nextStatusId)
      (h.combatants key) hc

/-- Whoever is there stays, within the frame. -/
theorem exists_of_some (h : Frame b c) {key : String} {x : Combatant}
    (hx : b.combatant? key = some x) : ∃ y, c.combatant? key = some y ∧
      Combatant.Frame b.settings.hpStat b.nextStatusId c.nextStatusId x y :=
  exists_of_rel (h.combatants key) hx

/-- The same combatants are there. -/
theorem contains_eq (h : Frame b c) (key : String) : c.contains key = b.contains key :=
  isSome_of_rel (h.combatants key)

/-- The levels left are the same. -/
theorem levels_eq (h : Frame b c) : c.levels = b.levels := by
  unfold levels; rw [h.settings, h.depth]

theorem below_eq (h : Frame b c) : c.below = b.below := by
  unfold below; rw [h.levels_eq]

end Frame

/-! ## The changes -/

theorem frame_roll (b : Battle) (upper : UInt32) : Frame b (b.roll upper).2 :=
  .of_map (fun _ x => x) ⟨_, _, _, _, rfl⟩ ⟨[], rfl⟩ (Nat.le_refl _) (fun key => by
    show b.combatant? key = _; simp) fun _ x => .refl _ _ _ x

theorem frame_undergo (b : Battle) (e : Event) (logged : Bool) : Frame b (b.undergo e logged) := by
  obtain ⟨combatants, log, h⟩ := undergo_eq b e logged
  refine .of_map _ ⟨_, _, _, _, h⟩ ?_ (by simp [h]) (combatant?_undergo b e logged) fun key x => ?_
  · rw [log_undergo]
    cases logged
    · exact ⟨[], rfl⟩
    · exact ⟨[e], rfl⟩
  · split
    · exact .adjustPersistent ..
    · exact .refl ..

theorem frame_prolong (b : Battle) (target status : String) (duration : Float) :
    Frame b (b.prolong target status duration) := by
  refine .of_map (fun key x => if key = target then
      { x with statuses := refreshFirst status (removalTime b.now duration) x.statuses } else x)
    ⟨_, _, _, _, rfl⟩ ⟨[], rfl⟩ (Nat.le_refl _) (fun key => ?_) fun key x => ?_
  · rw [combatant?_prolong]
    by_cases h : key = target
    · simp only [if_pos h]
    · simp [if_neg h]
  · split
    · exact .of_statuses ⟨[], by rw [map_endless_refreshFirst, List.append_nil], nofun⟩
    · exact .refl ..

theorem frame_afflict (b : Battle) (target : String) {s : ActiveStatus}
    (hid : s.id = b.nextStatusId) (htick : s.lastTick = none) : Frame b (b.afflict target s) := by
  refine .of_map (fun key x => if key = target then { x with statuses := x.statuses ++ [s] } else x)
    ⟨_, _, _, _, rfl⟩ ⟨[], rfl⟩ (Nat.le_succ _) (fun key => ?_) fun key x => ?_
  · rw [combatant?_afflict]
    by_cases h : key = target
    · simp only [if_pos h]
    · simp [if_neg h]
  · split
    · refine .of_statuses ⟨[s.endless], by simp, fun t ht => ?_⟩
      rw [List.mem_singleton.1 ht]
      exact ⟨Nat.le_of_eq hid.symm, Nat.lt_succ_of_le (Nat.le_of_eq hid), htick⟩
    · exact .refl ..

/-- **Frame.** Whatever comes of a battle by formulas stays in its frame. -/
theorem Evolves.frame {silent : Bool} {b c : Battle} (h : Evolves silent b c) : Frame b c := by
  induction h with
  | refl b => exact .refl b
  | trans _ _ ih ih' => exact ih.trans ih'
  | roll b upper => exact frame_roll b upper
  | event logged _ _ => exact frame_undergo _ _ logged
  | nested _ _ ih =>
    exact { ih with depth := by rw [ih.depth]; exact Nat.add_sub_cancel .. }
  | refresh duration _ _ _ _ => exact frame_prolong _ _ _ duration
  | inflict source duration values interval _ _ _ _ ih => exact ih.trans (frame_afflict _ _ rfl rfl)

end Skirmish.Battle
