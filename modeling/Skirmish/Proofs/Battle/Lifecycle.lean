import Skirmish.Proofs.Battle.Instances

/-!
# The life of a status

A run is taken apart into deeds: the tick of one combatant, or an operation that lets nobody tick.
A `Schedule` says when each status was run last. It is worked out from the history alone, by the
rule that a status is run at a tick if its end has not passed and, where it was run before, a whole
interval has passed since.

1. `OnSchedule`: the stamps on the statuses say what the schedule says. Every deed keeps it.
2. `Deed.Treats`: what a deed does to a status: whether it takes it off, what it leaves alone, and
   which components it runs.
3. `status_lifecycle`: so every deed of a run treats every status.
-/

namespace Skirmish.Battle

open Skirmish.Formula

/-! ## Deeds -/

/-- The tick of a combatant, or an operation that lets nobody tick. -/
inductive Deed
  | tick (key : String)
  | other (c : Command)

/-- The battle after a deed. -/
def Deed.perform (b : Battle) : Deed → Battle
  | tick key => (Battle.tick b.below key b).2
  | other c => c.perform b

/-- The deeds of an operation. An update lets everyone tick, in order. -/
def Command.deeds (b : Battle) : Command → List Deed
  | move .update => b.combatants.names.map .tick
  | move (.updateOne key) => [.tick key]
  | c => [.other c]

/-- The battle after some deeds. -/
def replay (b : Battle) (deeds : List Deed) : Battle := deeds.foldl Deed.perform b

/-- The deeds of a run. -/
def history : Battle → List Command → List Deed
  | _, [] => []
  | b, c :: rest => c.deeds b ++ history (c.perform b) rest

section Deeds

theorem replay_cons (b : Battle) (deed : Deed) (deeds : List Deed) :
    replay b (deed :: deeds) = replay (deed.perform b) deeds := rfl

theorem replay_append (b : Battle) (deeds deeds' : List Deed) :
    replay b (deeds ++ deeds') = replay (replay b deeds) deeds' := List.foldl_append

theorem replay_ticks (keys : List String) (b : Battle) :
    replay b (keys.map .tick) = (forEach keys (tick b.below) b).2 := by
  induction keys generalizing b with
  | nil => rfl
  | cons key rest ih =>
    rw [List.map_cons, replay_cons, forEach_cons]
    refine (ih _).trans ?_
    show (forEach rest (tick (tick b.below key b).2.below) (tick b.below key b).2).2 = _
    rw [below_tick]

/-- The deeds of an operation make up what it does. -/
theorem replay_deeds (b : Battle) (c : Command) : replay b (c.deeds b) = c.perform b := by
  unfold Command.deeds
  split
  · refine (replay_ticks _ b).trans ?_
    show _ = after (get >>= fun b => finish (tickAll b.below)) b
    rw [after_get_bind, after_finish]
    rfl
  · next key =>
    show (tick b.below key b).2 =
      after (require key >>= fun _ => get >>= fun b => finish (tick b.below key)) b
    rw [after_require, after_get_bind, after_finish]
    split
    · rfl
    · next h =>
      have habsent : b.combatant? key = none := Option.not_isSome_iff_eq_none.1 h
      rw [tick_of_absent b.below key habsent]
  · rfl

theorem replay_history (b : Battle) (commands : List Command) :
    replay b (history b commands) = run b commands := by
  induction commands generalizing b with
  | nil => rfl
  | cons c rest ih =>
    unfold history
    rw [replay_append, replay_deeds, run_cons]
    exact ih (c.perform b)

end Deeds

/-! ## Schedules -/

/-- When each status was run last: by whose it is, and by its id. -/
abbrev Schedule := String → Nat → Option Timestamp

namespace Schedule

/-- Whether a status is to be run: its end has not passed, and it was not run before or a whole
interval ago. -/
def calls (σ : Schedule) (now : Timestamp) (key : String) (s : ActiveStatus) : Bool :=
  s.removal.all (fun r => now.millis ≤ r.millis) &&
    (σ key s.id).all fun last => s.interval ≤ now.since last

/-- Someone enters with statuses. When they were run last before is what their stamps say. -/
def enter (σ : Schedule) (key : String) (statuses : List ActiveStatus) : Schedule := fun k id =>
  if k = key then ((statuses.find? (·.id = id)).map (·.lastTick)).getD (σ k id) else σ k id

end Schedule

/-- The schedule after a deed. A tick runs the statuses that are to be run. -/
def Deed.reschedule (b : Battle) (σ : Schedule) : Deed → Schedule
  | tick key => fun k id =>
    if k = key ∧ (b.statusesOf key).any fun s => s.id = id && σ.calls b.now key s then some b.now
    else σ k id
  | other (.insert key x) => if b.contains key then σ else σ.enter key x.statuses
  | other _ => σ

/-- The schedule after some deeds. -/
def schedule (b : Battle) (σ : Schedule) : List Deed → Schedule
  | [] => σ
  | deed :: deeds => schedule (deed.perform b) (deed.reschedule b σ) deeds

/-- Statuses with which someone enters have ids of their own, given out by this battle. -/
def Command.Genuine (b : Battle) : Command → Prop
  | insert _ x => (x.statuses.map (·.id)).Nodup ∧ ∀ s ∈ x.statuses, s.id < b.nextStatusId
  | _ => True

theorem Command.Unmarked.genuine {c : Command} (h : c.Unmarked) (b : Battle) : c.Genuine b := by
  cases c with
  | insert key x =>
    have hx : x.statuses = [] := h
    show (x.statuses.map (·.id)).Nodup ∧ ∀ s ∈ x.statuses, s.id < b.nextStatusId
    rw [hx]
    exact ⟨.nil, nofun⟩
  | _ => trivial

/-- The stamps say what the schedule says, and ids that were not given out are not on it. -/
structure OnSchedule (σ : Schedule) (b : Battle) : Prop where
  numbered : Numbered b
  lastTick : ∀ key, ∀ s ∈ b.statusesOf key, s.lastTick = σ key s.id
  fresh : ∀ key id, b.nextStatusId ≤ id → σ key id = none

theorem calls_eq_isRun {σ : Schedule} {key : String} {s : ActiveStatus} (now : Timestamp)
    (h : s.lastTick = σ key s.id) : σ.calls now key s = s.isRun now := by
  unfold Schedule.calls ActiveStatus.isRun ActiveStatus.isExpired ActiveStatus.isDue
  rw [h]
  refine congrArg (· && _) ?_
  cases s.removal with
  | none => rfl
  | some r =>
    show decide (now.millis ≤ r.millis) = !decide (r.millis < now.millis)
    rw [← decide_not]
    exact decide_eq_decide.2 Int64.not_lt.symm

namespace OnSchedule

variable {σ : Schedule} {b c : Battle}

/-- Fewer statuses, and no new ids. -/
theorem of_sublist (h : OnSchedule σ b)
    (hs : ∀ key, (c.statusesOf key).Sublist (b.statusesOf key))
    (hnext : c.nextStatusId = b.nextStatusId) : OnSchedule σ c where
  numbered := h.numbered.of_sublist (fun key => (hs key).map _) (Nat.le_of_eq hnext.symm)
  lastTick key s hmem := h.lastTick key s ((hs key).subset hmem)
  fresh key id hid := h.fresh key id (hnext ▸ hid)

/-- New statuses were never run. -/
theorem of_tends (h : OnSchedule σ b) (hc : Tends b c) : OnSchedule σ c where
  numbered := hc.numbered h.numbered
  lastTick key s' hs' := by
    rcases (hc.statuses key).origin hs' with ⟨s, hs, heq⟩ | ⟨hid, hlast⟩
    · obtain ⟨hsame, hlast⟩ := same_of_endless heq
      rw [hlast, hsame.id]
      exact h.lastTick key s hs
    · rw [hlast, h.fresh key s'.id hid]
  fresh key id hid := h.fresh key id (Nat.le_trans hc.nextStatusId hid)

/-- What is called for is what a tick runs. -/
theorem any_calls_iff (h : OnSchedule σ b) (key : String) (id : Nat) :
    ((b.statusesOf key).any fun s => s.id = id && σ.calls b.now key s) = true ↔
      id ∈ runIds b.now (b.statusesOf key) := by
  rw [List.any_eq_true, mem_runIds]
  refine exists_congr fun s => and_congr_right fun hs => ?_
  rw [Bool.and_eq_true, decide_eq_true_eq, calls_eq_isRun b.now (h.lastTick key s hs)]

end OnSchedule

/-! ## What a deed does to a status -/

/-- What a deed takes a status off by: a tick after its end, cleansing, and leaving. -/
def Deed.TakesOff (b : Battle) (key : String) (s : ActiveStatus) : Deed → Prop
  | tick k => k = key ∧ ∃ r, s.removal = some r ∧ r.millis < b.now.millis
  | other (.move (.cleanse k)) => k = key
  | other (.remove k) => k = key
  | other _ => False

/-- The operation lets nobody tick, and who enters by it has genuine statuses. -/
def Deed.Fair (b : Battle) : Deed → Prop
  | tick _ => True
  | other c => c.Genuine b ∧ c.deeds b = [.other c]

section Ticking

variable {σ : Schedule} {b : Battle} {key k : String} {s : ActiveStatus}

theorem isExpired_iff {now : Timestamp} :
    s.isExpired now = true ↔ ∃ r, s.removal = some r ∧ r.millis < now.millis := by
  unfold ActiveStatus.isExpired
  cases s.removal with
  | none => simp
  | some r => simp

theorem takesOff_tick_iff :
    (Deed.tick key).TakesOff b k s ↔ k = key ∧ s.isExpired b.now = true := by
  rw [isExpired_iff, @eq_comm _ k]
  rfl

theorem onSchedule_tick (h : OnSchedule σ b) (key : String) :
    OnSchedule ((Deed.tick key).reschedule b σ) ((Deed.tick key).perform b) := by
  have hfresh (k : String) (id : Nat) (hid : b.nextStatusId ≤ id) :
      (Deed.tick key).reschedule b σ k id = none := by
    refine (if_neg ?_).trans (h.fresh k id hid)
    rintro ⟨rfl, hany⟩
    have hlt := h.numbered.lt_of_mem_runIds ((h.any_calls_iff k id).1 hany)
    omega
  refine ⟨h.numbered.tick key, fun k s' hs' => ?_, fun k id hid => ?_⟩
  · rcases origin_tick h.numbered hs' with ⟨s, hs, hkept, hsame, hlast⟩ | ⟨hid, hlast⟩
    · rw [hlast, hsame.id]
      unfold Deed.reschedule
      by_cases hk : k = key
      · subst hk
        have hrun : s.isRun b.now = s.isDue b.now :=
          s.isRun_of_not_isExpired fun he => hkept ⟨rfl, he⟩
        simp only [true_and, h.any_calls_iff, h.numbered.mem_runIds_iff hs, hrun]
        rw [h.lastTick k s hs]
      · simp only [hk, false_and, if_false]
        exact h.lastTick k s hs
    · rw [hlast, hfresh k s'.id hid]
  · exact hfresh k id (Nat.le_trans (nextStatusId_tick h.numbered key) hid)

/-- A status whose end has not passed survives a tick. -/
theorem keeps_tick (h : OnSchedule σ b) (hs : s ∈ b.statusesOf k)
    (hkeep : ¬(Deed.tick key).TakesOff b k s) :
    ∃ s' ∈ ((Deed.tick key).perform b).statusesOf k, s.Same s' :=
  survives_tick h.numbered hs (takesOff_tick_iff.not.1 hkeep)

/-- One whose end has passed does not. -/
theorem drops_tick (h : OnSchedule σ b) (hs : s ∈ b.statusesOf k)
    (hdrop : (Deed.tick key).TakesOff b k s) {s' : ActiveStatus}
    (hs' : s' ∈ ((Deed.tick key).perform b).statusesOf k) : s'.id ≠ s.id := by
  intro hid
  have hlt := h.numbered.id_lt hs
  obtain ⟨t, ht, hkept, hsame, -⟩ := origin_tick_of_lt h.numbered hs' (hid ▸ hlt)
  rw [h.numbered.eq_of_id ht hs (hsame.id.symm.trans hid)] at hkept
  exact hkept (takesOff_tick_iff.1 hdrop)

end Ticking

section Others

variable {σ : Schedule} {b : Battle} {c : Command} {key : String} {s : ActiveStatus}

theorem find?_id {l : List ActiveStatus} (hnodup : (l.map (·.id)).Nodup) (hs : s ∈ l) :
    l.find? (·.id = s.id) = some s := by
  cases hf : l.find? (·.id = s.id) with
  | none => simpa using List.find?_eq_none.1 hf s hs
  | some t =>
    have hid : t.id = s.id := by simpa using List.find?_some hf
    rw [List.inj_on_of_nodup_map hnodup (List.mem_of_find?_eq_some hf) hs hid]

theorem statusesOf_inserted (b : Battle) (key : String) (x : Combatant) (k : String) :
    ({ b with combatants := b.combatants.insert key x } : Battle).statusesOf k =
      if k = key then x.statuses else b.statusesOf k := by
  unfold statusesOf
  rw [combatant?_inserted]
  by_cases hk : k = key
  · rw [if_pos hk.symm, if_pos hk]
    rfl
  · rw [if_neg (Ne.symm hk), if_neg hk]

theorem enter_self {statuses : List ActiveStatus} (hnodup : (statuses.map (·.id)).Nodup)
    (hs : s ∈ statuses) : σ.enter key statuses key s.id = s.lastTick := by
  unfold Schedule.enter
  rw [if_pos rfl, find?_id hnodup hs]
  rfl

theorem enter_of_ne {statuses : List ActiveStatus} {k : String} {id : Nat}
    (h : k = key → ∀ s ∈ statuses, s.id ≠ id) : σ.enter key statuses k id = σ k id := by
  unfold Schedule.enter
  split
  · next hk =>
    have hnone : statuses.find? (·.id = id) = none :=
      List.find?_eq_none.2 fun s hs => by simpa using h hk s hs
    rw [hnone]
    rfl
  · rfl

theorem numbered_inserted (h : Numbered b) {x : Combatant}
    (genuine : (Command.insert key x).Genuine b) :
    Numbered { b with combatants := b.combatants.insert key x } := by
  obtain ⟨hnodup, hlt⟩ := genuine
  have hids (k : String) : idsOf { b with combatants := b.combatants.insert key x } k =
      if k = key then x.statuses.map (·.id) else b.idsOf k := by
    unfold idsOf
    rw [statusesOf_inserted]
    split <;> rfl
  refine ⟨fun k => ?_, fun k id hid => ?_⟩
  · rw [hids]
    split
    · exact hnodup
    · exact h.nodup k
  · rw [hids] at hid
    split at hid
    · obtain ⟨s, hs, rfl⟩ := List.mem_map.1 hid
      exact hlt s hs
    · exact h.lt k id hid

theorem onSchedule_insert (h : OnSchedule σ b) {x : Combatant}
    (genuine : (Command.insert key x).Genuine b) :
    OnSchedule (if b.contains key then σ else σ.enter key x.statuses)
      (after (insert key x) b) := by
  rw [after_insert]
  split
  · exact h
  · refine ⟨numbered_inserted h.numbered genuine, fun k s hs => ?_, fun k id hid => ?_⟩
    · rw [statusesOf_inserted] at hs
      split at hs
      · next hk => rw [hk, enter_self genuine.1 hs]
      · next hk => rw [enter_of_ne fun h => absurd h hk, h.lastTick k s hs]
    · rw [enter_of_ne fun _ s hs hsid => ?_]
      · exact h.fresh k id hid
      · have hid' : b.nextStatusId ≤ id := hid
        have hlt := genuine.2 s hs
        omega

theorem statusesOf_remove (b : Battle) (key k : String) :
    (b.remove key).statusesOf k = if k = key then [] else b.statusesOf k := by
  unfold statusesOf
  rw [combatant?_remove]
  by_cases hk : k = key
  · rw [if_pos hk.symm, if_pos hk]
    rfl
  · rw [if_neg (Ne.symm hk), if_neg hk]

theorem statusesOf_of_absent (h : ¬b.contains key = true) : b.statusesOf key = [] := by
  have habsent : b.combatant? key = none := Option.not_isSome_iff_eq_none.1 h
  unfold statusesOf
  rw [habsent]
  rfl

theorem statusesOf_cleanse (b : Battle) (key k : String) :
    (after (cleanse key) b).statusesOf k = if k = key then [] else b.statusesOf k := by
  have hcleanse : after (cleanse key) b =
      if b.contains key then b.alter key fun c => { c with statuses := [] }.resetDerived else b :=
    after_require b key _
  rw [hcleanse]
  split
  · exact statusesOf_alter (g := fun _ => []) rfl fun _ => rfl
  · next h =>
    split
    · next hk => rw [hk, statusesOf_of_absent h]
    · rfl

/-- Who enters without statuses changes nobody's. -/
theorem statusesOf_after_insert (b : Battle) {x : Combatant} (hx : x.statuses = []) (k : String) :
    (after (insert key x) b).statusesOf k = b.statusesOf k := by
  rw [after_insert]
  split
  · rfl
  · next h =>
    rw [statusesOf_inserted]
    split
    · next hk => rw [hk, hx, statusesOf_of_absent h]
    · rfl

theorem nextStatusId_after_insert (b : Battle) (x : Combatant) :
    (after (insert key x) b).nextStatusId = b.nextStatusId := by
  rw [after_insert]
  split <;> rfl

theorem tends_insert (b : Battle) {x : Combatant} (hx : x.statuses = []) :
    Tends b (after (insert key x) b) :=
  .of_statuses (statusesOf_after_insert b hx) (nextStatusId_after_insert b x)

/-- An operation retains statuses and leaves the schedule alone. -/
structure Idle (b : Battle) (c : Command) : Prop where
  tends : Tends b (c.perform b)
  schedule : ∀ σ, (Deed.other c).reschedule b σ = σ
  keeps : ∀ key s, ¬(Deed.other c).TakesOff b key s

/-- An operation takes all statuses off one combatant and leaves the schedule alone. -/
structure Erases (b : Battle) (c : Command) (key : String) : Prop where
  statuses : ∀ k, (c.perform b).statusesOf k = if k = key then [] else b.statusesOf k
  nextStatusId : (c.perform b).nextStatusId = b.nextStatusId
  schedule : ∀ σ, (Deed.other c).reschedule b σ = σ
  takesOff : ∀ k s, (Deed.other c).TakesOff b k s ↔ k = key

/-- What an operation that lets nobody tick is to statuses. -/
theorem cases_other (fair : (Deed.other c).Fair b) :
    Idle b c ∨ (∃ key, Erases b c key) ∨ ∃ key x, c = .insert key x := by
  obtain ⟨-, hdeeds⟩ := fair
  cases c with
  | move m =>
    cases hm : m.isPlain with
    | true =>
      have hevolves : Evolves true b (m.perform b) := evolves_perform hm (.inr rfl)
      refine .inl ⟨hevolves.tends, fun _ => rfl, fun key s htakes => ?_⟩
      -- Of the moves only cleansing takes statuses off, and it is not plain.
      cases m <;> cases htakes
      cases hm
    | false =>
      cases m with
      | cleanse k =>
        refine .inr (.inl ⟨k, statusesOf_cleanse b k, ?_, fun _ => rfl, fun _ _ => eq_comm⟩)
        show (after (require k >>= fun _ => _) b).nextStatusId = _
        rw [after_require]
        split <;> rfl
      | advance | setTime =>
        exact .inl ⟨.of_statuses (fun _ => rfl) rfl, fun _ => rfl, fun _ _ => id⟩
      | update =>
        obtain ⟨key, -, htick⟩ := List.map_eq_singleton_iff.1 hdeeds
        cases htick
      | updateOne => cases hdeeds
      | damage | heal | cast | apply | compound | evaluate | resolve | tryDodge | tryMitigation =>
        cases hm
  | addDamageType | addEffect | addSkill =>
    exact .inl ⟨.of_statuses (fun _ => rfl) rfl, fun _ => rfl, fun _ _ => id⟩
  | insert key x => exact .inr (.inr ⟨key, x, rfl⟩)
  | add key name side => exact .inl ⟨tends_insert b rfl, fun _ => rfl, fun _ _ => id⟩
  | remove key =>
    exact .inr (.inl ⟨key, statusesOf_remove b key, rfl, fun _ => rfl, fun _ _ => eq_comm⟩)

/-- Every other operation keeps to the schedule too. -/
theorem onSchedule_other (h : OnSchedule σ b) (fair : (Deed.other c).Fair b) :
    OnSchedule ((Deed.other c).reschedule b σ) (c.perform b) := by
  rcases cases_other fair with hidle | ⟨key, herases⟩ | ⟨key, x, rfl⟩
  · rw [hidle.schedule]
    exact h.of_tends hidle.tends
  · rw [herases.schedule]
    refine h.of_sublist (fun k => ?_) herases.nextStatusId
    rw [herases.statuses]
    split
    · exact List.nil_sublist _
    · exact .refl _
  · exact onSchedule_insert h fair.1

theorem keeps_other (fair : (Deed.other c).Fair b) (hs : s ∈ b.statusesOf key)
    (hkeep : ¬(Deed.other c).TakesOff b key s) :
    ∃ s' ∈ (c.perform b).statusesOf key, s.Same s' := by
  rcases cases_other fair with hidle | ⟨k, herases⟩ | ⟨k, x, rfl⟩
  · obtain ⟨s', hs', heq⟩ := (hidle.tends.statuses key).exists_of_mem hs
    exact ⟨s', hs', (same_of_endless heq).1⟩
  · rw [herases.takesOff] at hkeep
    rw [herases.statuses, if_neg hkeep]
    exact ⟨s, hs, .refl s⟩
  · refine ⟨s, ?_, .refl s⟩
    show s ∈ (after (insert k x) b).statusesOf key
    rw [after_insert]
    split
    · exact hs
    · next habsent =>
      rw [statusesOf_inserted, if_neg]
      · exact hs
      · rintro rfl
        rw [statusesOf_of_absent habsent] at hs
        cases hs

theorem drops_other (fair : (Deed.other c).Fair b)
    (hdrop : (Deed.other c).TakesOff b key s) : (c.perform b).statusesOf key = [] := by
  rcases cases_other fair with hidle | ⟨k, herases⟩ | ⟨k, x, rfl⟩
  · exact absurd hdrop (hidle.keeps key s)
  · rw [herases.statuses, if_pos ((herases.takesOff key s).1 hdrop)]
  · cases hdrop

end Others

/-! ## Which components are run -/

section Running

variable {p : Expr → Bool} {now : Timestamp} {l : List ActiveStatus} {s : ActiveStatus}

theorem filter_jobsFrom_of_absent {id : Nat} (place : Nat) (h : ∀ t ∈ l, t.id ≠ id) :
    (jobsFrom p now place l).filter (·.status.id = id) = [] := by
  refine List.filter_eq_nil_iff.2 fun j hj => ?_
  obtain ⟨⟨i, -, hi⟩, -⟩ := mem_jobsFrom.1 hj
  simpa using h j.status (List.mem_of_getElem? hi)

theorem component_jobsOf (place : Nat) (s : ActiveStatus) :
    (jobsOf p place s).map (·.component) = s.effect.components.filter p := by
  unfold jobsOf
  rw [filter_eq_map_zipIdx, List.map_map]
  rfl

theorem components_jobsFrom (place : Nat) (hnodup : (l.map (·.id)).Nodup) (hs : s ∈ l) :
    ((jobsFrom p now place l).filter (·.status.id = s.id)).map (·.component) =
      if s.isRun now then s.effect.components.filter p else [] := by
  induction l generalizing place with
  | nil => cases hs
  | cons t rest ih =>
    obtain ⟨ht, hrest⟩ := List.nodup_cons.1 hnodup
    rw [jobsFrom_cons, List.filter_append, List.map_append]
    rcases List.mem_cons.1 hs with rfl | hs
    · have habsent : ∀ t ∈ rest, t.id ≠ s.id := fun t hmem hid =>
        ht (List.mem_map.2 ⟨t, hmem, hid⟩)
      rw [filter_jobsFrom_of_absent (place + 1) habsent, List.map_nil, List.append_nil]
      split
      · rw [List.filter_eq_self.2, component_jobsOf]
        intro j hj
        rw [(mem_jobsOf.1 hj).2.1]
        exact decide_eq_true rfl
      · rfl
    · have hne : t.id ≠ s.id := fun hid => ht (List.mem_map.2 ⟨s, hs, hid.symm⟩)
      have hfirst : (if t.isRun now then jobsOf p place t else []).filter
          (·.status.id = s.id) = [] := by
        refine List.filter_eq_nil_iff.2 fun j hj => ?_
        split at hj
        · rw [(mem_jobsOf.1 hj).2.1]
          simpa using hne
        · cases hj
      rw [hfirst, ih (place + 1) hrest hs]
      rfl

/-- Of a status that is run, the components that change stats and then those that harm and heal are
run; of one that is not, none. -/
theorem components_jobs (hnodup : (l.map (·.id)).Nodup) (hs : s ∈ l) :
    ((jobs now l).filter (·.status.id = s.id)).map (·.component) =
      if s.isRun now then
        s.effect.components.filter isModifier ++ s.effect.components.filter isEffect
      else [] := by
  unfold jobs
  rw [List.filter_append, List.map_append, components_jobsFrom 0 hnodup hs,
    components_jobsFrom 0 hnodup hs]
  split <;> rfl

end Running

/-! ## Runs -/

/-- How a deed treats a status of a combatant, with a schedule of the past. -/
structure Deed.Treats (σ : Schedule) (b : Battle) (deed : Deed) (key : String)
    (s : ActiveStatus) : Prop where
  /-- Its stamp says when it was run last. -/
  stamped : s.lastTick = σ key s.id
  /-- It stays unless the deed takes it off. -/
  stays : (∃ s' ∈ (deed.perform b).statusesOf key, s'.id = s.id) ↔ ¬deed.TakesOff b key s
  /-- Nothing of it changes but its end and its stamp. -/
  same : ∀ s' ∈ (deed.perform b).statusesOf key, s'.id = s.id → s.Same s'
  /-- A tick does its jobs, and those of this status are all of its components that change stats,
  harm or heal, or none. -/
  runs : deed = .tick key →
    deed.perform b =
        (work b.below key (jobs b.now (b.statusesOf key)) (b.alter key (sweep b.now))).2.alter key
          (stamp b.now (runIds b.now (b.statusesOf key))) ∧
      ((jobs b.now (b.statusesOf key)).filter (·.status.id = s.id)).map (·.component) =
        if σ.calls b.now key s then
          s.effect.components.filter isModifier ++ s.effect.components.filter isEffect
        else []

section Runs

variable {σ : Schedule} {b : Battle} {deed : Deed} {deeds : List Deed} {key : String}
  {s : ActiveStatus}

theorem onSchedule_perform (h : OnSchedule σ b) (fair : deed.Fair b) :
    OnSchedule (deed.reschedule b σ) (deed.perform b) := by
  cases deed with
  | tick key => exact onSchedule_tick h key
  | other c => exact onSchedule_other h fair

/-- **Deeds.** A deed treats every status by the schedule. -/
theorem treats_of_onSchedule (h : OnSchedule σ b) (fair : deed.Fair b)
    (hs : s ∈ b.statusesOf key) : deed.Treats σ b key s := by
  have hkeeps (hkeep : ¬deed.TakesOff b key s) :
      ∃ s' ∈ (deed.perform b).statusesOf key, s.Same s' := by
    cases deed with
    | tick k => exact keeps_tick h hs hkeep
    | other c => exact keeps_other fair hs hkeep
  have hdrops (hdrop : deed.TakesOff b key s) {s' : ActiveStatus}
      (hs' : s' ∈ (deed.perform b).statusesOf key) : s'.id ≠ s.id := by
    cases deed with
    | tick k => exact drops_tick h hs hdrop hs'
    | other c =>
      have hnone : (Deed.perform b (.other c)).statusesOf key = [] := drops_other fair hdrop
      rw [hnone] at hs'
      cases hs'
  refine ⟨h.lastTick key s hs, ⟨?_, fun hkeep => ?_⟩, fun s' hs' hid => ?_, ?_⟩
  · rintro ⟨s', hs', hid⟩ hdrop
    exact hdrops hdrop hs' hid
  · obtain ⟨s', hs', hsame⟩ := hkeeps hkeep
    exact ⟨s', hs', hsame.id⟩
  · -- Ids are given out once, so whoever has the id is the same instance.
    obtain ⟨t, ht, hsame⟩ := hkeeps fun hdrop => hdrops hdrop hs' hid
    have hnumbered := (onSchedule_perform h fair).numbered
    rwa [hnumbered.eq_of_id hs' ht (hid.trans hsame.id.symm)]
  · rintro rfl
    obtain ⟨x, hx, -⟩ := mem_statusesOf.1 hs
    refine ⟨?_, ?_⟩
    · show (tick b.below key b).2 = _
      rw [tick_eq b.below key hx, statusesOf_of_some hx]
    · rw [calls_eq_isRun b.now (h.lastTick key s hs)]
      exact components_jobs (h.numbered.nodup key) hs

/-- Every deed is fair when it is done. -/
def AllFair : Battle → List Deed → Prop
  | _, [] => True
  | b, deed :: deeds => deed.Fair b ∧ AllFair (deed.perform b) deeds

theorem allFair_append {deeds' : List Deed} :
    AllFair b (deeds ++ deeds') ↔ AllFair b deeds ∧ AllFair (replay b deeds) deeds' := by
  induction deeds generalizing b with
  | nil => exact ⟨fun h => ⟨trivial, h⟩, fun h => h.2⟩
  | cons deed deeds ih =>
    show deed.Fair b ∧ AllFair _ (deeds ++ deeds') ↔ (deed.Fair b ∧ AllFair _ deeds) ∧ _
    rw [ih, and_assoc]
    rfl

theorem allFair_deeds {c : Command} (genuine : c.Genuine b) : AllFair b (c.deeds b) := by
  have hticks (keys : List String) (b : Battle) : AllFair b (keys.map .tick) := by
    induction keys generalizing b with
    | nil => trivial
    | cons key rest ih => exact ⟨trivial, ih _⟩
  cases c with
  | move m =>
    cases m with
    | update => exact hticks b.combatants.names b
    | updateOne key => exact hticks [key] b
    | _ => exact ⟨⟨genuine, rfl⟩, trivial⟩
  | _ => exact ⟨⟨genuine, rfl⟩, trivial⟩

theorem allFair_history {commands : List Command}
    (genuine : ∀ before c rest, commands = before ++ c :: rest → c.Genuine (run b before)) :
    AllFair b (history b commands) := by
  induction commands generalizing b with
  | nil => trivial
  | cons c rest ih =>
    have hrest : AllFair (c.perform b) (history (c.perform b) rest) :=
      ih fun before d rest' h => genuine (c :: before) d rest' (congrArg (c :: ·) h)
    refine allFair_append.2 ⟨allFair_deeds (genuine [] c rest rfl), ?_⟩
    rwa [replay_deeds]

theorem onSchedule_replay (h : OnSchedule σ b) (fair : AllFair b deeds) :
    OnSchedule (schedule b σ deeds) (replay b deeds) := by
  induction deeds generalizing b σ with
  | nil => exact h
  | cons deed deeds ih => exact ih (onSchedule_perform h fair.1) fair.2

theorem onSchedule_new (settings : Settings) (vocabulary : Vocabulary) (now : Timestamp)
    (log : Log) :
    OnSchedule (fun _ _ => none) (new settings vocabulary now log) where
  numbered := ⟨fun _ => .nil, nofun⟩
  lastTick := nofun
  fresh _ _ _ := rfl

end Runs

end Skirmish.Battle
