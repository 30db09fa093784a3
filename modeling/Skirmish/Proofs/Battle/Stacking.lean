import Skirmish.Proofs.Battle.Registry

/-!
# Stacking limits

A status that refreshes or does not stack may lie on someone once, and an independent one as often
as its limit says, if that is a number (`StatusEffect.limit?`). An application looks at what is
there, evaluates the interval, and only then adds its instance. So the limits hold unless the
evaluation of an interval itself fills the room that was found (`Overtaken`).

1. `orderly_iff`: operations keep to the limits of all statuses exactly under the rules in which
   no application is overtaken.
2. `withinLimits_run`: so they hold after every run from a new battle under such rules.
3. `exceeds_of_overtaken`: an application that is overtaken exceeds the limit.
-/

namespace Skirmish.Battle

open Skirmish.Formula

/-! ## Limits -/

theorem Combatant.statusCount_eq (x : Combatant) (status : String) :
    x.statusCount status = x.effects.countP (·.key = status) := by
  unfold statusCount effects
  rw [List.countP_map]
  rfl

theorem Combatant.statusCount_append (x : Combatant) (s : ActiveStatus) (status : String) :
    statusCount { x with statuses := x.statuses ++ [s] } status =
      x.statusCount status + if s.key = status then 1 else 0 := by
  unfold statusCount
  rw [List.countP_append, List.countP_singleton]
  by_cases h : s.key = status
  · rw [if_pos h, if_pos (decide_eq_true h)]
  · rw [if_neg h, if_neg (ne_true_of_eq_false (decide_eq_false h))]

/-- No one carries more instances of a status than its limit. -/
def WithinLimits (b : Battle) : Prop :=
  ∀ key x, b.combatant? key = some x → ∀ status e n, b.effects.get? status = some e →
    e.limit? = some n → x.statusCount status ≤ n

/-- There is room for an instance of a status on the target, its interval is evaluated to a number,
and after that the room is filled. -/
inductive Overtaken (b : Battle) (target status source : String) (values : List Float) : Prop
  | intro {c : Battle} {e : StatusEffect} {n : Nat} {x y : Combatant} {v : Value}
      {seconds : Float} (known : b.effects.get? status = some e) (limit : e.limit? = some n)
      (there : b.combatant? target = some x) (room : x.statusCount status < n)
      (evaluated : deeper (resolveStatus b.below e.interval source target values) b = .ok v c)
      (number : v.asNumber = .ok seconds) (after : c.combatant? target = some y)
      (filled : n ≤ y.statusCount status)

/-- In a battle by these rules that keeps to the limits no application is overtaken. -/
def Rules.Orderly (r : Rules) : Prop :=
  ∀ b : Battle, b.rules = r → b.Sound → b.WithinLimits →
    ∀ target status source values, ¬b.Overtaken target status source values

/-! ## What keeps to the limits -/

section Keeping

variable {silent : Bool} {b c : Battle}

theorem Sheds.withinLimits (h : Sheds b c) (hb : WithinLimits b) : WithinLimits c := by
  intro key y hy status e n hk hn
  obtain ⟨x, hx, hsub⟩ := h.carried key y hy
  have hle := hb key x hx status e n (h.effects ▸ hk) hn
  rw [Combatant.statusCount_eq] at hle ⊢
  exact Nat.le_trans hsub.countP_le hle

/-- An instance is added where there is room for it. -/
theorem WithinLimits.afflict (hb : WithinLimits b) {target status : String} {s : ActiveStatus}
    (named : s.key = status) (known : b.effects.get? status = some s.effect)
    (room : ∀ x n, b.combatant? target = some x → s.effect.limit? = some n →
      x.statusCount status < n) : WithinLimits (b.afflict target s) := by
  intro key y hy other e n (hk : b.effects.get? other = some e) hn
  rw [combatant?_afflict] at hy
  split at hy
  · next htarget =>
    subst htarget
    obtain ⟨x, hx, rfl⟩ := Option.map_eq_some_iff.1 hy
    have hle := hb key x hx other e n hk hn
    rw [Combatant.statusCount_append]
    by_cases ho : s.key = other
    · rw [← ho, named, known] at hk
      obtain rfl : s.effect = e := Option.some.inj hk
      have hlt := room x n hx hn
      rw [if_pos ho, ← ho, named]
      omega
    · rw [if_neg ho]
      omega
  · exact hb key y hy other e n hk hn

/-- **Formulas.** Under orderly rules formulas keep to the limits, however applications set off
each other. -/
theorem Evolves.withinLimits (h : Evolves silent b c) (orderly : b.rules.Orderly) (hs : Sound b)
    (hb : WithinLimits b) : WithinLimits c := by
  induction h with
  | refl => exact hb
  | trans h _ ih ih' =>
    refine ih' ?_ (h.sound hs) (ih orderly hs hb)
    rw [h.frame.rules_eq]
    exact orderly
  | roll => exact (sheds_roll ..).withinLimits hb
  | event => exact (sheds_undergo ..).withinLimits hb
  | nested _ _ ih =>
    have hinner := ih orderly ((sheds_depth ..).sound hs) ((sheds_depth ..).withinLimits hb)
    exact (sheds_depth ..).withinLimits hinner
  | refresh => exact (sheds_prolong ..).withinLimits hb
  | @inflict b c target status e x source duration values interval known there room inner ih =>
    refine (ih orderly hs hb).afflict (hs.named status e known)
      (inner.frame.effects ▸ known) fun y n hy hn => ?_
    obtain ⟨hlt, v, seconds, hv, hnumber⟩ := room n hn
    refine Nat.lt_of_not_le fun hfull => ?_
    exact orderly b rfl hs hb target status source values
      ⟨known, hn, there, hlt, hv, hnumber, hy, hfull⟩

theorem Proceeds.withinLimits (h : Proceeds silent b c) (orderly : b.rules.Orderly) (hs : Sound b)
    (hb : WithinLimits b) : WithinLimits c := by
  induction h with
  | trans h _ ih ih' =>
    refine ih' ?_ (h.sound hs) (ih orderly hs hb)
    rw [h.rules_eq]
    exact orderly
  | evolve h => exact h.withinLimits orderly hs hb
  | sweep => exact (sheds_sweep ..).withinLimits hb
  | modify => exact (sheds_modify ..).withinLimits hb
  | stamp => exact (sheds_stamp ..).withinLimits hb
  | cleanse => exact (sheds_cleanse ..).withinLimits hb
  | clock => exact (sheds_clock ..).withinLimits hb

end Keeping

/-! ## What does not -/

section Exceeding

variable {b c : Battle} {target status source : String} {values : List Float}
  {e : StatusEffect} {n : Nat} {x : Combatant}

/-- An application that finds room adds its instance to what the evaluation of the interval left
behind. -/
theorem inflict_of_room {v : Value} {seconds : Float} (duration : Float)
    (known : b.effects.get? status = some e) (limit : e.limit? = some n)
    (there : b.combatant? target = some x) (room : x.statusCount status < n)
    (evaluated : deeper (resolveStatus b.below e.interval source target values) b = .ok v c)
    (number : v.asNumber = .ok seconds) (after : c.contains target = true) :
    inflict b.below target status source duration values b = .ok true (c.afflict target
      { id := c.nextStatusId, effect := e, source, lastTick := none,
        removal := removalTime c.now duration, interval := wholeMillis (seconds * 1000),
        values }) := by
  have hadd : addStatus b.below e target source duration values b = _ :=
    addStatus_of_number evaluated number after
  by_cases kind : e.stacking = .independent
  · obtain ⟨k, hk, hk0, rfl⟩ := limit?_independent kind limit
    have hmay : mayStack b.below e target source values (x.statusCount status) b = .ok true b := by
      rw [mayStack_number (deeper_eq_ok evaluated).1 hk]
      simp [room]
    rw [inflict_independent known there kind, bind_of_ok hmay, if_pos rfl, bind_of_ok hadd]
    rfl
  · have has : x.hasStatus status = false := by
      rw [limit?_of_single kind] at limit
      cases limit
      exact Combatant.statusCount_eq_zero_iff.1 (Nat.lt_one_iff.1 room)
    rw [inflict_new known there kind has, bind_of_ok hadd]
    rfl

/-- An application that is overtaken leaves more instances than the limit. -/
theorem exceeds_of_overtaken (sound : b.Sound) (h : b.Overtaken target status source values) :
    ¬((Move.apply target status source 0 values).perform b).WithinLimits := by
  obtain @⟨c, e, n, x, y, v, seconds, known, limit, there, room, hv, hs, hy, filled⟩ := h
  have hframe : Frame b c := (evolves_interval (keeps_below b true) hv).frame
  have hthere : c.contains target = true := contains_of_combatant? hy
  have hperform : (Move.apply target status source 0 values).perform b = c.afflict target
      { id := c.nextStatusId, effect := e, source, lastTick := none,
        removal := removalTime c.now 0, interval := wholeMillis (seconds * 1000), values } := by
    show after (require target >>= fun _ => get >>= fun b =>
      act (inflict b.below target status source 0 values)) b = _
    rw [after_require, if_pos (hframe.contains_eq target ▸ hthere), after_get_bind, after_act,
      after_of_ok (inflict_of_room 0 known limit there room hv hs hthere)]
  rw [hperform]
  intro hwithin
  have hle := hwithin target _ (by rw [combatant?_afflict, if_pos rfl, hy]; rfl) status e n
    (show c.effects.get? status = some e by rw [hframe.effects]; exact known) limit
  have hkey : ActiveStatus.key
      { id := c.nextStatusId, effect := e, source, lastTick := none,
        removal := removalTime c.now 0, interval := wholeMillis (seconds * 1000), values } =
      status := sound.named status e known
  rw [Combatant.statusCount_append, if_pos hkey] at hle
  omega

end Exceeding

/-- **Exactness.** Under orderly rules, and under no others, every operation that changes no rules
keeps to the limits wherever they were kept to before. -/
theorem orderly_iff (r : Rules) :
    r.Orderly ↔ ∀ b : Battle, b.rules = r → b.Sound → b.WithinLimits →
      ∀ m : Move, (m.perform b).WithinLimits := by
  constructor
  · intro orderly b hr hs hl m
    have h : Proceeds true b (m.perform b) := proceeds_perform m (.inr rfl)
    exact h.withinLimits (hr ▸ orderly) hs hl
  · intro hkeep b hr hs hl target status source values hover
    exact exceeds_of_overtaken hs hover (hkeep b hr hs hl _)

/-- Rules are orderly when the interval of every status with a limit is a number. -/
theorem orderly_of_number {r : Rules}
    (h : ∀ status e, r.effects.get? status = some e → e.limit? ≠ none →
      ∃ x, e.interval = .leaf (.number x)) : r.Orderly := by
  rintro b rfl _ _ target status source values ⟨known, limit, there, room, hv, -, after, filled⟩
  obtain ⟨x, hx⟩ := h status _ known (by rw [limit]; exact nofun)
  rw [hx, deeper_number x (deeper_eq_ok hv).1] at hv
  cases hv
  rw [there] at after
  cases after
  omega

/-! ## Runs -/

section Runs

variable {b : Battle} {commands : List Command}

/-- Registering an effect under a new name. -/
theorem WithinLimits.addEffect (hb : WithinLimits b) (hs : Sound b) {e : StatusEffect}
    (fresh : b.effects.get? e.key = none) : WithinLimits (b.addEffect e) := by
  intro key x hx status e' n hk hn
  rw [get?_addEffect] at hk
  split at hk
  · next he =>
    subst he
    -- No one can carry it yet, since what is carried is registered.
    have hzero : x.statusCount e.key = 0 := by
      rw [Combatant.statusCount_eq, List.countP_eq_zero]
      intro e'' hmem he''
      have hold := hs.registered key x hx e'' hmem
      rw [of_decide_eq_true he'', fresh] at hold
      cases hold
    omega
  · exact hb key x hx status e' n hk hn

theorem WithinLimits.insert (hb : WithinLimits b) (key : String) {x : Combatant}
    (hx : x.statuses = []) : WithinLimits (after (insert key x) b) := by
  rw [after_insert]
  split
  · exact hb
  · intro other y hy status e n hk hn
    rw [combatant?_inserted] at hy
    split at hy
    · cases hy
      unfold Combatant.statusCount
      rw [hx]
      exact Nat.zero_le n
    · exact hb other y hy status e n hk hn

theorem withinLimits_perform {command : Command} (hb : WithinLimits b) (hs : Sound b)
    (unmarked : command.Unmarked)
    (fresh : ∀ e, command.effect? = some e → b.effects.get? e.key = none)
    (orderly : ∀ m, command = .move m → b.rules.Orderly) :
    WithinLimits (command.perform b) := by
  cases command with
  | move m =>
    have h : Proceeds true b (m.perform b) := proceeds_perform m (.inr rfl)
    exact h.withinLimits (orderly m rfl) hs hb
  | addDamageType | addSkill => exact hb
  | addEffect e => exact hb.addEffect hs (fresh e rfl)
  | insert key x => exact hb.insert key unmarked
  | add key name side => exact hb.insert key rfl
  | remove key => exact (sheds_remove b key).withinLimits hb

/-- **Runs.** The limits hold after a run in which moves are made under orderly rules alone. -/
theorem withinLimits_run (h : Proper b commands) (hs : Sound b) (hb : WithinLimits b)
    (orderly : ∀ part m, part ++ [.move m] <+: commands → (run b part).rules.Orderly) :
    WithinLimits (run b commands) := by
  induction commands generalizing b with
  | nil => exact hb
  | cons command rest ih =>
    have unmarked := h.unmarked command List.mem_cons_self
    have hstep : WithinLimits (command.perform b) := by
      refine withinLimits_perform hb hs unmarked h.head ?_
      rintro m rfl
      exact orderly [] m (by simp)
    refine ih h.tail (sound_perform hs unmarked h.head) hstep fun part m hpart => ?_
    exact orderly (command :: part) m ((List.prefix_cons_inj command).2 hpart)

end Runs

/-- **Stacking limits.** Consider a run from a new battle in which no effect is registered twice.
If the rules are orderly whenever a move is made, no one carries more instances of a status than
its limit; and where an application would be overtaken after the run, making it exceeds the limit.
Orderly rules are exactly those under which all moves keep to the limits. -/
theorem stacking_limits (settings : Settings) (vocabulary : Vocabulary) (now : Timestamp)
    (log : Log) :
    (∀ commands : List Command, (∀ command ∈ commands, command.Unmarked) →
      ((commands.filterMap Command.effect?).map (·.key)).Nodup →
      ((∀ part m, part ++ [.move m] <+: commands →
        (run (new settings vocabulary now log) part).rules.Orderly) →
        (run (new settings vocabulary now log) commands).WithinLimits) ∧
      ∀ target status source values,
        (run (new settings vocabulary now log) commands).Overtaken target status source values →
        ¬(run (new settings vocabulary now log)
          (commands ++ [.move (.apply target status source 0 values)])).WithinLimits) ∧
    ∀ r : Rules, r.Orderly ↔ ∀ b : Battle, b.rules = r → b.Sound → b.WithinLimits →
      ∀ m : Move, (m.perform b).WithinLimits := by
  refine ⟨fun commands unmarked once => ?_, orderly_iff⟩
  have hproper := proper_new settings vocabulary now log unmarked once
  have hsound := sound_new settings vocabulary now log
  refine ⟨withinLimits_run hproper hsound nofun, fun target status source values hover => ?_⟩
  rw [run_concat]
  exact exceeds_of_overtaken (sound_run hproper hsound) hover

/-- Two applications of a status that refreshes, with an interval of one second. -/
theorem stacking_limits_refresh :
    (run (new .standard) [.add "h" "H" .player,
      .addEffect ⟨"bond", .refresh, none, .leaf (.number 1), []⟩,
      .move (.apply "h" "bond" "h" 0 []), .move (.apply "h" "bond" "h" 0 [])]).WithinLimits := by
  refine ((stacking_limits .standard .standard ⟨0⟩ .discarded).1 _
    (by simp [Command.Unmarked]) (by decide)).1 fun part m hpart => ?_
  refine orderly_of_number fun status e he _ => ?_
  rcases mem_of_effects_run he with h | h
  · cases h
  · have hmem := hpart.subset (List.mem_append_left _ h)
    simp only [List.mem_cons, List.not_mem_nil, reduceCtorEq, Command.addEffect.injEq, or_false,
      false_or] at hmem
    exact ⟨1, by rw [hmem]⟩

/-! ## A status that overtakes itself -/

/-- One second; but someone without hit points is healed first and given `bond`. -/
def bondInterval : Expr :=
  .call ⟨"IF", .exactly 3, .choose, [1, 2], []⟩
    [.apply ⟨">", 0, true, 2, .greater⟩
      [.call ⟨"GET_PROP", .exactly 2, .stat, [], [1]⟩
        [.leaf (.key "$TARGET"), .leaf (.key "CHP")], .leaf (.number 0)],
     .leaf (.number 1),
     .call ⟨"ARR_RANDOM", .exactly 1, .pick, [], []⟩
      [.call ⟨"ARRAY", .atLeast 0, .array, [], []⟩
        [.leaf (.number 1),
         .call ⟨"HEAL", .exactly 3, .heal, [], []⟩
          [.leaf (.key "$TARGET"), .leaf (.key "$CASTER"), .leaf (.number 1)],
         .call ⟨"APPLY", .exactly 5, .inflict, [], [2]⟩
          [.leaf (.key "$TARGET"), .leaf (.key "$CASTER"), .leaf (.key "bond"),
           .leaf (.number 0), .call ⟨"ARRAY", .atLeast 0, .array, [], []⟩ []]]]]

/-- A status that refreshes, with that interval. -/
def bond : StatusEffect := ⟨"bond", .refresh, none, bondInterval, []⟩

/-- Someone without hit points is given `bond`. -/
def bondCommands : List Command :=
  [.add "h" "H" .player, .addEffect bond, .move (.apply "h" "bond" "h" 0 [])]

/-- Settings in which everyone starts without hit points. -/
def bondSettings : Settings :=
  { Settings.standard with defaultStats := Table.ofList [("CHP", 0)], seed := 0 }

/-- The limits are not kept to by all runs: the interval of `bond` adds an instance while another
one is about to be added. -/
theorem bond_exceeds :
    (∀ command ∈ bondCommands, command.Unmarked) ∧
      ((bondCommands.filterMap Command.effect?).map (·.key)).Nodup ∧
      ¬(run (new bondSettings) bondCommands).WithinLimits := by
  refine ⟨by simp [bondCommands, Command.Unmarked], by decide, fun h => ?_⟩
  have htwo : ((run (new bondSettings) bondCommands).combatant? "h").map (·.statusCount "bond") =
      some 2 := by decide +kernel
  obtain ⟨x, hx, hcount⟩ := Option.map_eq_some_iff.1 htwo
  have known : (run (new bondSettings) bondCommands).effects.get? "bond" = some bond := by
    unfold bondCommands
    rw [run_cons, run_cons, run_cons, run_nil, effects_perform, effects_perform]
    rfl
  have hle := h "h" x hx "bond" bond 1 known rfl
  omega

end Skirmish.Battle
