import Skirmish.Proofs.Battle.Course

/-!
# The log as a ledger

Hit points change only together with a record in the log, so the log accounts for them.

1. `Evolves.balanced`, `Proceeds.balanced`: what formulas and moves do is accounted for.
2. `balanced_run`: so over any run in which damage and healing are logged, the hit points of
   whoever stays are what they were, changed by the records of the run in order, and no other base
   stat changes.
-/

namespace Skirmish.Battle

open Skirmish.Formula

/-! ## Accounts -/

theorem foldl_record_kept (events added : List Event) :
    added.foldl Log.record (.kept events) = .kept (events ++ added) := by
  induction added generalizing events with
  | nil => rw [List.append_nil]; rfl
  | cons e rest ih =>
    rw [List.foldl_cons]
    exact (ih _).trans (by rw [List.append_assoc]; rfl)

/-- The hit points of `key` after an event. What was missing starts at zero. -/
def Event.book (e : Event) (key : String) (hp : Option Float) : Option Float :=
  match e.change? with
  | some (target, delta) => if target = key then some (hp.getD 0 + delta) else hp
  | none => hp

theorem Event.book_eq (e : Event) (key : String) (hp : Option Float) :
    e.book key hp =
      if e.change?.any (·.1 = key) then some (hp.getD 0 + (e.change?.map (·.2)).getD 0)
      else hp := by
  unfold Event.book
  cases e.change? with
  | none => rfl
  | some change => simp

/-- The hit points of `key` after events in order. -/
def ledger (key : String) (events : List Event) (hp : Option Float) : Option Float :=
  events.foldl (fun hp e => e.book key hp) hp

/-- The base stats of `y` are those of `x`, the hit points changed by the events that concern
`key`. -/
def Combatant.Booked (hp key : String) (events : List Event) (x y : Combatant) : Prop :=
  y.baseStat? hp = ledger key events (x.baseStat? hp) ∧
    ∀ stat, stat ≠ hp → y.baseStat? stat = x.baseStat? stat

/-- From `b` to `c` the events were added to the log, and they account for the base stats of the
combatants in `who`. -/
structure Accounts (who : String → Prop) (events : List Event) (b c : Battle) : Prop where
  hp : c.settings.hpStat = b.settings.hpStat
  log : c.log = events.foldl Log.record b.log
  combatants : ∀ key, who key →
    Option.Rel (Combatant.Booked b.settings.hpStat key events) (b.combatant? key)
      (c.combatant? key)

theorem Combatant.Booked.trans {hp key : String} {events events' : List Event}
    {x y z : Combatant} (h : x.Booked hp key events y) (k : y.Booked hp key events' z) :
    x.Booked hp key (events ++ events') z := by
  constructor
  · unfold ledger
    rw [List.foldl_append, k.1, h.1]
    rfl
  · intro stat hs
    rw [k.2 stat hs, h.2 stat hs]

namespace Accounts

variable {who : String → Prop} {events events' : List Event} {b c d : Battle}

/-- Where nothing is recorded, base stats stay. -/
theorem of_base (hp : c.settings.hpStat = b.settings.hpStat) (log : c.log = b.log)
    (h : ∀ key, who key → Option.Rel (fun x y => y.base = x.base) (b.combatant? key)
      (c.combatant? key)) : Accounts who [] b c where
  hp := hp
  log := log
  combatants key hk := by
    refine rel_mono (fun {x y} hbase => ?_) (h key hk)
    have hstat (stat : String) : y.baseStat? stat = x.baseStat? stat := by
      unfold Combatant.baseStat?; rw [hbase]
    exact ⟨hstat b.settings.hpStat, fun stat _ => hstat stat⟩

theorem of_combatants (hp : c.settings.hpStat = b.settings.hpStat) (log : c.log = b.log)
    (h : c.combatants = b.combatants) : Accounts who [] b c := by
  refine of_base hp log fun key _ => rel_of_eq ?_ fun _ => rfl
  unfold combatant?
  rw [h]

theorem refl (b : Battle) : Accounts who [] b b := of_combatants rfl rfl rfl

theorem trans (h : Accounts who events b c) (k : Accounts who events' c d) :
    Accounts who (events ++ events') b d where
  hp := k.hp.trans h.hp
  log := by rw [k.log, h.log, List.foldl_append]
  combatants key hk := by
    have hc := k.combatants key hk
    rw [h.hp] at hc
    exact rel_trans (fun hxy hyz => hxy.trans hyz) (h.combatants key hk) hc

theorem mono {who' : String → Prop} (h : Accounts who events b c) (hw : ∀ key, who' key → who key) :
    Accounts who' events b c :=
  { h with combatants := fun key hk => h.combatants key (hw key hk) }

end Accounts

section Changes

variable {who : String → Prop} (b : Battle)

theorem accounts_alter (key : String) {f : Combatant → Combatant}
    (hf : ∀ x, (f x).base = x.base) : Accounts who [] b (b.alter key f) := by
  refine .of_base rfl rfl fun other _ => ?_
  rw [combatant?_alter]
  split
  · exact rel_of_eq_map rfl hf
  · exact rel_of_eq rfl fun _ => rfl

theorem accounts_afflict (target : String) (s : ActiveStatus) :
    Accounts who [] b (b.afflict target s) := by
  have h : Accounts who [] { b with nextStatusId := b.nextStatusId + 1 } (b.afflict target s) :=
    accounts_alter _ target fun _ => rfl
  exact ⟨h.hp, h.log, h.combatants⟩

/-- An event that is logged accounts for itself. -/
theorem accounts_undergo (e : Event) : Accounts who [e] b (b.undergo e true) where
  hp := by
    obtain ⟨combatants, log, h⟩ := undergo_eq b e true
    rw [h]
  log := by rw [log_undergo, if_pos rfl]; rfl
  combatants key _ := by
    refine rel_of_eq_map (combatant?_undergo b e true key) fun x => ?_
    unfold Combatant.Booked ledger
    rw [List.foldl_cons, List.foldl_nil, Event.book_eq]
    by_cases h : e.change?.any (·.1 = key) = true
    · rw [if_pos h, if_pos h]
      exact ⟨by simp, fun stat hs => by
        rw [Combatant.baseStat?_adjustPersistent, if_neg (Ne.symm hs)]⟩
    · rw [if_neg h, if_neg h]
      exact ⟨rfl, fun _ _ => rfl⟩

end Changes

/-! ## What is accounted for -/

section Balance

variable {who : String → Prop} {b c : Battle}

/-- **Formulas.** What formulas do to base stats is in the log, however they set off each other. -/
theorem Evolves.balanced (h : Evolves false b c) : ∃ events, Accounts who events b c := by
  induction h with
  | refl b => exact ⟨[], .refl b⟩
  | trans _ _ ih ih' =>
    obtain ⟨events, h⟩ := ih
    obtain ⟨events', h'⟩ := ih'
    exact ⟨events ++ events', h.trans h'⟩
  | roll b upper => exact ⟨[], .of_combatants rfl rfl rfl⟩
  | event logged there told =>
    obtain rfl : logged = true := told.resolve_right nofun
    exact ⟨[_], accounts_undergo _ _⟩
  | nested _ _ ih =>
    obtain ⟨events, h⟩ := ih
    exact ⟨events, h.hp, h.log, h.combatants⟩
  | refresh => exact ⟨[], accounts_alter _ _ fun _ => rfl⟩
  | inflict _ _ _ _ _ _ _ _ ih =>
    obtain ⟨events, h⟩ := ih
    exact ⟨events ++ [], h.trans (accounts_afflict _ _ _)⟩

/-- **Moves.** Ticks and cleansing leave base stats alone. -/
theorem Proceeds.balanced (h : Proceeds false b c) : ∃ events, Accounts who events b c := by
  induction h with
  | trans _ _ ih ih' =>
    obtain ⟨events, h⟩ := ih
    obtain ⟨events', h'⟩ := ih'
    exact ⟨events ++ events', h.trans h'⟩
  | evolve h => exact h.balanced
  | sweep | modify | stamp | cleanse => exact ⟨[], accounts_alter _ _ fun _ => rfl⟩
  | clock b now => exact ⟨[], .of_combatants rfl rfl rfl⟩

/-- What entering and leaving does to those who are there before and after. -/
theorem accounts_insert (key : String) (x : Combatant) :
    Accounts (fun other => b.contains other = true) [] b (after (insert key x) b) := by
  rw [after_insert]
  by_cases h : b.contains key = true
  · rw [if_pos h]
    exact .refl b
  · rw [if_neg h]
    refine .of_base rfl rfl fun other ho => rel_of_eq ?_ fun _ => rfl
    have hne : key ≠ other := fun he => h (he ▸ ho)
    rw [combatant?_inserted, if_neg hne]

theorem accounts_remove (key : String) :
    Accounts (fun other => (b.remove key).contains other = true) [] b (b.remove key) := by
  refine .of_base rfl rfl fun other ho => rel_of_eq ?_ fun _ => rfl
  have hne : key ≠ other := by
    rintro rfl
    have hnone := combatant?_remove b key key
    rw [if_pos rfl] at hnone
    have hsome : ((b.remove key).combatant? key).isSome = true := ho
    rw [hnone] at hsome
    cases hsome
  rw [combatant?_remove, if_neg hne]

/-- **Operations.** What an operation does to those who are there before and after it is accounted
for. -/
theorem balanced_perform (command : Command) (told : command.Told) :
    ∃ events, Accounts (fun key => b.contains key = true ∧ (command.perform b).contains key = true)
      events b (command.perform b) := by
  cases command with
  | move m => exact (proceeds_perform m (.inl told)).balanced
  | addDamageType | addEffect | addSkill => exact ⟨[], .of_combatants rfl rfl rfl⟩
  | insert key x => exact ⟨[], (accounts_insert key x).mono fun _ h => h.1⟩
  | add key name side => exact ⟨[], (accounts_insert key _).mono fun _ h => h.1⟩
  | remove key => exact ⟨[], (accounts_remove key).mono fun _ h => h.2⟩

/-- Someone is there from the beginning of a run to its end. -/
def Stays (b : Battle) (commands : List Command) (key : String) : Prop :=
  ∀ part, part <+: commands → (run b part).contains key = true

theorem balanced_run {commands : List Command} (told : ∀ command ∈ commands, command.Told) :
    ∃ events, Accounts (Stays b commands) events b (run b commands) := by
  induction commands generalizing b with
  | nil => exact ⟨[], .refl b⟩
  | cons command rest ih =>
    obtain ⟨events, h⟩ := balanced_perform (b := b) command (told command (by simp))
    obtain ⟨events', h'⟩ := ih (b := command.perform b) fun c hc => told c (by simp [hc])
    refine ⟨events ++ events', .trans (h.mono fun key hk => ?_) (h'.mono fun key hk => ?_)⟩
    · exact ⟨hk [] (List.nil_prefix ..), hk [command] (by simp)⟩
    · intro part hpart
      exact hk (command :: part) ((List.prefix_cons_inj command).2 hpart)

end Balance

/-- **The ledger.** Over a run in which damage and healing from outside are logged, the log only
grows, whatever fails. Whoever stays has at the end the base stats of the beginning, except that the
hit points are changed by the records added for them, in the order of the log. -/
theorem ledger_run {b : Battle} {events : List Event} {commands : List Command}
    (kept : b.log = .kept events) (told : ∀ command ∈ commands, command.Told) :
    ∃ added, (run b commands).log = .kept (events ++ added) ∧
      ∀ key x, b.combatant? key = some x → Stays b commands key →
        ∃ y, (run b commands).combatant? key = some y ∧
          y.baseStat? b.settings.hpStat = ledger key added (x.baseStat? b.settings.hpStat) ∧
          ∀ stat, stat ≠ b.settings.hpStat → y.baseStat? stat = x.baseStat? stat := by
  obtain ⟨added, h⟩ := balanced_run (b := b) told
  refine ⟨added, ?_, fun key x hx stays => ?_⟩
  · rw [h.log, kept, foldl_record_kept]
  · exact exists_of_rel (h.combatants key stays) hx

/-- A player who is healed. -/
theorem ledger_run_heal :
    ∃ added y, (run (run (new .standard .standard ⟨0⟩ (.kept [])) [.add "h" "H" .player])
        [.move (.heal "h" 5 "h" true)]).log = .kept ([] ++ added) ∧
      (run (run (new .standard .standard ⟨0⟩ (.kept [])) [.add "h" "H" .player])
        [.move (.heal "h" 5 "h" true)]).combatant? "h" = some y ∧
      y.baseStat? "CHP" = ledger "h" added (some 100) := by
  have hstart : (Combatant.new "H" .player Settings.standard.defaultStats).baseStat? "CHP" =
      some 100 := by decide
  obtain ⟨added, hlog, h⟩ := @ledger_run
    (run (new .standard .standard ⟨0⟩ (.kept [])) [.add "h" "H" .player]) []
    [.move (.heal "h" 5 "h" true)] rfl (by simp [Command.Told, Move.Told])
  have hthere : Stays (run (new .standard .standard ⟨0⟩ (.kept [])) [.add "h" "H" .player])
      [.move (.heal "h" 5 "h" true)] "h" := by
    intro part hpart
    rcases List.prefix_cons_iff.1 hpart with rfl | ⟨rest, rfl, hrest⟩
    · rfl
    · rw [List.prefix_nil.1 hrest]
      rfl
  obtain ⟨y, hy, hhp, -⟩ :=
    h "h" (.new "H" .player Settings.standard.defaultStats) rfl hthere
  have hname : (run (new .standard .standard ⟨0⟩ (.kept []))
      [.add "h" "H" .player]).settings.hpStat = "CHP" := rfl
  rw [hname, hstart] at hhp
  exact ⟨added, y, hlog, hy, hhp⟩

end Skirmish.Battle
