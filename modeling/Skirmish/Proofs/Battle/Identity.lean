import Skirmish.Proofs.Battle.Lifecycle

/-!
# The identity of statuses

An id is given out with every instance of a status, and never again.

1. `Identified`: in one battle ids tell instances apart, and order those of a combatant.
2. `Succeeds`: in a later battle an id that had been given out before is borne by the instance that
   bore it then, or by none.
3. `Evolves.identified`, `Proceeds.identified`, `Command.identified_perform`: formulas, ticks and
   operations keep the one and end in the other, whether they succeed or fail.
4. `given_by_addStatus`: an instance that is put on a combatant has the latest id of all.
-/

namespace Skirmish.Battle

open Skirmish.Formula

/-! ## One battle -/

/-- Ids tell statuses apart. -/
structure Identified (b : Battle) : Prop where
  /-- The ids on each combatant increase. -/
  increasing : ∀ key, (b.idsOf key).Pairwise (· < ·)
  /-- All of them have been given out. -/
  lt : ∀ key, ∀ id ∈ b.idsOf key, id < b.nextStatusId
  /-- No two combatants share one. -/
  apart : ∀ key other, ∀ id ∈ b.idsOf key, id ∈ b.idsOf other → key = other

namespace Identified

variable {b c : Battle}

/-- Statuses may go, and ids be given out. -/
theorem of_sublist (h : Identified b) (hids : ∀ key, (c.idsOf key).Sublist (b.idsOf key))
    (hnext : b.nextStatusId ≤ c.nextStatusId) : Identified c where
  increasing key := (h.increasing key).sublist (hids key)
  lt key id hid := Nat.lt_of_lt_of_le (h.lt key id ((hids key).subset hid)) hnext
  apart key other id hid hid' := h.apart key other id ((hids key).subset hid)
    ((hids other).subset hid')

theorem of_statuses (h : Identified b) (hs : ∀ key, c.statusesOf key = b.statusesOf key)
    (hnext : b.nextStatusId ≤ c.nextStatusId) : Identified c := by
  refine h.of_sublist (fun key => ?_) hnext
  unfold idsOf
  rw [hs]

/-- The next id is greater than all before, so an instance that bears it comes last and is like no
other. -/
theorem afflict (h : Identified b) {target : String} {s : ActiveStatus} {x : Combatant}
    (there : b.combatant? target = some x) (hid : s.id = b.nextStatusId) :
    Identified (b.afflict target s) := by
  have hids (key : String) : ∀ id ∈ (b.afflict target s).idsOf key,
      id ∈ b.idsOf key ∨ key = target ∧ id = b.nextStatusId := by
    intro id hmem
    rw [idsOf_afflict there, hid] at hmem
    split at hmem
    · next hk =>
      rcases List.mem_append.1 hmem with hmem | hmem
      · exact .inl (hk ▸ hmem)
      · exact .inr ⟨hk, List.mem_singleton.1 hmem⟩
    · exact .inl hmem
  constructor
  · intro key
    rw [idsOf_afflict there, hid]
    split
    · refine List.pairwise_append.2 ⟨h.increasing target, List.pairwise_singleton _ _, ?_⟩
      intro id hmem n hn
      rw [List.mem_singleton.1 hn]
      exact h.lt target id hmem
    · exact h.increasing key
  · intro key id hmem
    have hnext : (b.afflict target s).nextStatusId = b.nextStatusId + 1 := rfl
    rcases hids key id hmem with hmem | ⟨-, rfl⟩
    · have hlt := h.lt key id hmem
      omega
    · omega
  · intro key other id hkey hother
    rcases hids key id hkey with hkey | ⟨rfl, rfl⟩
    · rcases hids other id hother with hother | ⟨-, rfl⟩
      · exact h.apart key other id hkey hother
      · exact absurd (h.lt key _ hkey) (Nat.lt_irrefl _)
    · rcases hids other _ hother with hother | ⟨rfl, -⟩
      · exact absurd (h.lt other _ hother) (Nat.lt_irrefl _)
      · rfl

end Identified

/-! ## A later battle -/

/-- Ids that had been given out in `b` are borne in `c` by those that bore them in `b`. -/
structure Succeeds (b c : Battle) : Prop where
  nextStatusId : b.nextStatusId ≤ c.nextStatusId
  origin : ∀ key, ∀ s' ∈ c.statusesOf key, s'.id < b.nextStatusId →
    ∃ s ∈ b.statusesOf key, s.Same s'

namespace Succeeds

variable {b c d : Battle}

theorem trans (h : Succeeds b c) (k : Succeeds c d) : Succeeds b d where
  nextStatusId := Nat.le_trans h.nextStatusId k.nextStatusId
  origin key s'' hs'' hlt := by
    obtain ⟨s', hs', hsame⟩ := k.origin key s'' hs'' (Nat.lt_of_lt_of_le hlt h.nextStatusId)
    obtain ⟨s, hs, hsame'⟩ := h.origin key s' hs' (hsame.id ▸ hlt)
    exact ⟨s, hs, hsame'.trans hsame⟩

theorem of_origin (hnext : c.nextStatusId = b.nextStatusId)
    (h : ∀ key, ∀ s' ∈ c.statusesOf key, ∃ s ∈ b.statusesOf key, s.Same s') : Succeeds b c where
  nextStatusId := Nat.le_of_eq hnext.symm
  origin key s' hs' _ := h key s' hs'

theorem of_statuses (hs : ∀ key, c.statusesOf key = b.statusesOf key)
    (hnext : c.nextStatusId = b.nextStatusId) : Succeeds b c :=
  .of_origin hnext fun key s' hs' => ⟨s', hs key ▸ hs', .refl s'⟩

theorem of_tends (h : Tends b c) : Succeeds b c where
  nextStatusId := h.nextStatusId
  origin key s' hs' hlt := by
    rcases (h.statuses key).origin hs' with ⟨s, hs, heq⟩ | ⟨hle, -⟩
    · exact ⟨s, hs, (same_of_endless heq).1⟩
    · omega

end Succeeds

/-! ## Formulas -/

section Steps

variable {silent : Bool} {b c : Battle}

/-- What formulas do keeps ids apart. Only a new instance adds one, and it adds the next, at
whatever depth that comes to pass. -/
theorem Evolves.identified (h : Evolves silent b c) (hb : Identified b) : Identified c := by
  induction h with
  | refl => exact hb
  | trans _ _ ih ih' => exact ih' (ih hb)
  | roll => exact hb.of_statuses (fun _ => rfl) (Nat.le_refl _)
  | @event b e logged there told =>
    exact hb.of_statuses (fun _ => statusesOf_undergo e logged)
      (Evolves.event logged there told).frame.nextStatusId
  | nested _ _ ih =>
    have hin := ih (hb.of_statuses (fun _ => rfl) (Nat.le_refl _))
    exact hin.of_statuses (fun _ => rfl) (Nat.le_refl _)
  | @refresh b target status e x duration =>
    refine hb.of_sublist (fun key => ?_) (Nat.le_refl _)
    rw [idsOf_prolong]
  | inflict _ _ _ _ _ there _ inner ih =>
    obtain ⟨y, hy, -⟩ := inner.frame.exists_of_some there
    exact (ih hb).afflict hy rfl

/-! ## Operations -/

/-- Statuses of one combatant that are taken off, or changed without becoming others. -/
theorem identified_alter {key : String} {f : Combatant → Combatant}
    {g : List ActiveStatus → List ActiveStatus} (hf : ∀ x, (f x).statuses = g x.statuses)
    (hids : ∀ l, ((g l).map (·.id)).Sublist (l.map (·.id)))
    (hsame : ∀ l, ∀ s' ∈ g l, ∃ s ∈ l, s.Same s') :
    (Identified b → Identified (b.alter key f)) ∧ Succeeds b (b.alter key f) := by
  have hnil : g [] = [] := List.eq_nil_iff_forall_not_mem.2 fun s' hs' => by
    obtain ⟨s, hs, -⟩ := hsame [] s' hs'
    cases hs
  refine ⟨fun hb => hb.of_sublist (fun other => ?_) (Nat.le_refl _),
    .of_origin rfl fun other s' hs' => ?_⟩
  · unfold idsOf
    rw [statusesOf_alter hnil hf]
    split
    · next ho => exact ho ▸ hids _
    · exact .refl _
  · rw [statusesOf_alter hnil hf] at hs'
    split at hs'
    · next ho => exact ho ▸ hsame _ s' hs'
    · exact ⟨s', hs', .refl s'⟩

theorem Proceeds.identified (h : Proceeds silent b c) :
    (Identified b → Identified c) ∧ Succeeds b c := by
  induction h with
  | trans _ _ ih ih' => exact ⟨ih'.1 ∘ ih.1, ih.2.trans ih'.2⟩
  | evolve h => exact ⟨h.identified, .of_tends h.tends⟩
  | sweep b key =>
    exact identified_alter (g := List.filter (!·.isExpired b.now)) (fun _ => rfl)
      (fun _ => List.filter_sublist.map _)
      fun _ s hs => ⟨s, (List.mem_filter.1 hs).1, .refl s⟩
  | modify b key stat amount =>
    exact identified_alter (g := id) (fun _ => rfl) (fun _ => .refl _) fun _ s hs => ⟨s, hs, .refl s⟩
  | stamp b key now ids =>
    refine identified_alter (fun _ => rfl) (fun l => ?_) fun l s' hs' => ?_
    · rw [List.map_map]
      simp only [Function.comp_def, (same_stamped ..).id]
      exact .refl _
    · obtain ⟨s, hs, rfl⟩ := List.mem_map.1 hs'
      exact ⟨s, hs, same_stamped now ids s⟩
  | cleanse =>
    exact identified_alter (g := fun _ => []) (fun _ => rfl) (fun _ => List.nil_sublist _) nofun
  | clock =>
    exact ⟨fun hb => hb.of_statuses (fun _ => rfl) (Nat.le_refl _),
      .of_statuses (fun _ => rfl) rfl⟩

theorem identified_remove (b : Battle) (key : String) :
    (Identified b → Identified (b.remove key)) ∧ Succeeds b (b.remove key) := by
  refine ⟨fun hb => hb.of_sublist (fun k => ?_) (Nat.le_refl _), .of_origin rfl fun k s' hs' => ?_⟩
  · unfold idsOf
    rw [statusesOf_remove]
    split
    · exact List.nil_sublist _
    · exact .refl _
  · rw [statusesOf_remove] at hs'
    split at hs'
    · cases hs'
    · exact ⟨s', hs', .refl s'⟩

theorem identified_insert (b : Battle) (key : String) {x : Combatant} (hx : x.statuses = []) :
    (Identified b → Identified (after (insert key x) b)) ∧ Succeeds b (after (insert key x) b) :=
  ⟨fun hb => hb.of_statuses (statusesOf_after_insert b hx)
    (Nat.le_of_eq (nextStatusId_after_insert b x).symm),
    .of_tends (tends_insert b hx)⟩

/-- **Operations.** An operation keeps ids apart and gives out new ones alone. -/
theorem Command.identified_perform {command : Command} (unmarked : command.Unmarked) (b : Battle) :
    (Identified b → Identified (command.perform b)) ∧ Succeeds b (command.perform b) := by
  cases command with
  | move m =>
    have hm : Proceeds true b (m.perform b) := proceeds_perform m (.inr rfl)
    exact hm.identified
  | addDamageType | addEffect | addSkill =>
    exact ⟨fun hb => hb.of_statuses (fun _ => rfl) (Nat.le_refl _),
      .of_statuses (fun _ => rfl) rfl⟩
  | insert key x => exact identified_insert b key unmarked
  | add key name side => exact identified_insert b key rfl
  | remove key => exact identified_remove b key

end Steps

/-! ## New instances -/

section Gifts

variable {b c d : Battle} {target : String} {s : ActiveStatus}

/-- Between `b` and `c` an instance was put on the target. It comes last there, its id was given out
in the meantime, and it is the latest. -/
structure Gives (b : Battle) (target : String) (s : ActiveStatus) (c : Battle) : Prop where
  last : (c.statusesOf target).getLast? = some s
  fresh : b.nextStatusId ≤ s.id
  latest : c.nextStatusId = s.id + 1

theorem succeeds_afflict {x : Combatant} (there : d.combatant? target = some x)
    (hid : s.id = d.nextStatusId) : Succeeds d (d.afflict target s) := by
  refine ⟨Nat.le_succ _, fun key s' hs' hlt => ⟨s', ?_, .refl s'⟩⟩
  rw [statusesOf_afflict there] at hs'
  split at hs'
  · next hk =>
    rcases List.mem_append.1 hs' with hs' | hs'
    · exact hk ▸ hs'
    · rw [List.mem_singleton.1 hs'] at hlt
      omega
  · exact hs'

theorem gives_afflict {x : Combatant} (there : d.combatant? target = some x)
    (hid : s.id = d.nextStatusId) (hnext : b.nextStatusId ≤ d.nextStatusId) :
    Gives b target s (d.afflict target s) := by
  refine ⟨?_, hid ▸ hnext, congrArg (· + 1) hid.symm⟩
  rw [statusesOf_afflict there, if_pos rfl]
  exact List.getLast?_concat

/-- Where an instance is added, it is put on what the evaluation of its interval made of the battle,
with the next id. -/
theorem exists_afflict_of_addStatus {e : StatusEffect} {source : String} {duration : Float}
    {values : List Float}
    (h : addStatus b.below e target source duration values b = .ok () c) :
    ∃ d s x, Evolves true b d ∧ d.combatant? target = some x ∧ s.id = d.nextStatusId ∧
      c = d.afflict target s := by
  cases hv : deeper (resolveStatus b.below e.interval source target values) b with
  | error err d =>
    unfold addStatus at h
    rw [bind_of_error hv] at h
    cases h
  | ok v d =>
    cases hs : v.asNumber with
    | error err =>
      rw [addStatus_of_not_number hv hs] at h
      cases h
    | ok seconds =>
      by_cases ht : d.contains target = true
      · obtain ⟨x, hx⟩ := Option.isSome_iff_exists.1 ht
        rw [addStatus_of_number hv hs ht] at h
        injection h with _ h
        exact ⟨d, _, x, evolves_interval (keeps_below b true) hv, hx, rfl, h.symm⟩
      · rw [addStatus_of_absent hv hs ht] at h
        cases h

/-- **New instances.** Whenever an instance is added, also in the midst of formulas, its id is the
latest of all. -/
theorem gives_of_addStatus {e : StatusEffect} {source : String} {duration : Float}
    {values : List Float}
    (h : addStatus b.below e target source duration values b = .ok () c) :
    (Identified b → Identified c) ∧ Succeeds b c ∧ ∃ s, Gives b target s c := by
  obtain ⟨d, s, x, hd, hx, hid, rfl⟩ := exists_afflict_of_addStatus h
  refine ⟨fun hb => (hd.identified hb).afflict hx hid, ?_, s, ?_⟩
  · exact (Succeeds.of_tends hd.tends).trans (succeeds_afflict hx hid)
  · exact gives_afflict hx hid hd.tends.nextStatusId

end Gifts

/-! ## Runs -/

section Runs

theorem identified_run {commands : List Command} (unmarked : ∀ c ∈ commands, c.Unmarked)
    (b : Battle) : (Identified b → Identified (run b commands)) ∧ Succeeds b (run b commands) := by
  induction commands generalizing b with
  | nil => exact ⟨id, .of_statuses (fun _ => rfl) rfl⟩
  | cons command rest ih =>
    obtain ⟨hcommand, hrest⟩ := List.forall_mem_cons.1 unmarked
    obtain ⟨hidentified, hsucceeds⟩ := Command.identified_perform hcommand b
    obtain ⟨hidentified', hsucceeds'⟩ := ih hrest (command.perform b)
    exact ⟨hidentified' ∘ hidentified, hsucceeds.trans hsucceeds'⟩

theorem identified_new (settings : Settings) (vocabulary : Vocabulary) (now : Timestamp)
    (log : Log) : Identified (new settings vocabulary now log) :=
  ⟨fun _ => .nil, nofun, nofun⟩

/-- **Ids.** Whoever enters has no statuses yet.

1. In every battle that a run reaches, ids tell instances apart: those on one combatant increase,
   no two combatants share one, and all have been given out.
2. However the run goes on, an id that had been given out by then is borne by the instance that bore
   it, on the same combatant, or by none: not after its bearer ended, was cleansed or left, and also
   if it came and went within one operation.
3. In any battle, at any depth and so in the midst of formulas too, an instance that is added comes
   last, with an id that had not been given out, and ids still tell instances apart. -/
theorem statuses_identified (settings : Settings) (vocabulary : Vocabulary) (now : Timestamp)
    (log : Log) {before rest : List Command} (unmarked : ∀ c ∈ before ++ rest, c.Unmarked) :
    let b := run (new settings vocabulary now log) before
    Identified b ∧ Succeeds b (run b rest) ∧
      ∀ (c d : Battle) (e : StatusEffect) (target source : String) (duration : Float)
        (values : List Float),
        addStatus c.below e target source duration values c = .ok () d →
          (Identified c → Identified d) ∧ Succeeds c d ∧ ∃ s, Gives c target s d := by
  intro b
  obtain ⟨hbefore, hrest⟩ := List.forall_mem_append.1 unmarked
  have hstart := identified_new settings vocabulary now log
  refine ⟨(identified_run hbefore _).1 hstart, (identified_run hrest b).2, ?_⟩
  exact fun c d e target source duration values => gives_of_addStatus

/-- While the interval of `bond` is evaluated, `mark` is put on its target, and so comes first. The
first time no number is picked, and `bond` is not added. After a cleansing, and after its bearer left
and came back, the ids go on. -/
theorem statuses_identified_nested :
    let interval : Expr := .call ⟨"ARR_RANDOM", .exactly 1, .pick, [], []⟩
      [.call ⟨"ARRAY", .atLeast 0, .array, [], []⟩
        [.leaf (.number 1),
         .call ⟨"APPLY", .exactly 5, .inflict, [], [2]⟩
          [.leaf (.key "$TARGET"), .leaf (.key "$CASTER"), .leaf (.key "mark"),
           .leaf (.number 60), .call ⟨"ARRAY", .atLeast 0, .array, [], []⟩ []]]]
    let apply (status : String) : Command := .move (.apply "h" status "h" 60 [])
    let before : List Command :=
      [.add "h" "H" .player, .addEffect ⟨"mark", .independent, none, .leaf (.number 1), []⟩,
        .addEffect ⟨"bond", .independent, none, interval, []⟩, apply "bond",
        .move (.cleanse "h"), apply "bond"]
    let rest : List Command := [.remove "h", .add "h" "H" .player, apply "mark"]
    let b := run (new { Settings.standard with seed := 1 }) before
    b.idsOf "h" = [1, 2] ∧ (run b rest).idsOf "h" = [3] ∧ Identified b ∧
      Succeeds b (run b rest) := by
  intro interval apply before rest b
  have unmarked : ∀ c ∈ before ++ rest, c.Unmarked := by
    simp [before, rest, apply, Command.Unmarked]
  obtain ⟨hidentified, hsucceeds, -⟩ := statuses_identified { Settings.standard with seed := 1 }
    .standard ⟨0⟩ .discarded unmarked
  exact ⟨by decide +kernel, by decide +kernel, hidentified, hsucceeds⟩

end Runs

end Skirmish.Battle
