import Skirmish.Proofs.Battle.Course

/-!
# Registered effects

Combatants carry registered effects alone, as long as no effect is registered twice.

1. `Sheds`: what most changes of a battle are, where no one gets a status.
2. `Evolves.sound`, `Proceeds.sound`: what formulas and moves do keeps `Sound`.
3. `sound_run`: so does a run in which names of effects are registered once and everyone enters
   without statuses.
-/

namespace Skirmish.Battle

open Skirmish.Formula

/-! ## The effects that someone carries -/

/-- The effects of the statuses of a combatant, in order. -/
def Combatant.effects (x : Combatant) : List StatusEffect := x.statuses.map (·.effect)

theorem effects_refreshFirst (x : Combatant) (status : String) (removal : Option Timestamp) :
    Combatant.effects { x with statuses := refreshFirst status removal x.statuses } =
      x.effects := by
  have h (l : List ActiveStatus) : l.map (·.effect) =
      (l.map ActiveStatus.endless).map (·.effect) := by
    rw [List.map_map]; rfl
  unfold Combatant.effects
  rw [h, map_endless_refreshFirst, ← h]

theorem effects_stamp (now : Timestamp) (ids : List Nat) (x : Combatant) :
    (stamp now ids x).effects = x.effects := by
  unfold Combatant.effects stamp
  rw [List.map_map]
  refine List.map_congr_left fun s _ => ?_
  show (if s.id ∈ ids then { s with lastTick := some now } else s : ActiveStatus).effect = s.effect
  split <;> rfl

/-- Effects are registered under their names, and combatants carry registered effects alone. -/
structure Sound (b : Battle) : Prop where
  named : ∀ status e, b.effects.get? status = some e → e.key = status
  registered : ∀ key x, b.combatant? key = some x → ∀ e ∈ x.effects,
    b.effects.get? e.key = some e

/-! ## Where no one gets a status -/

/-- The same effects are registered, and no one carries more than before. -/
structure Sheds (b c : Battle) : Prop where
  effects : c.effects = b.effects
  carried : ∀ key y, c.combatant? key = some y →
    ∃ x, b.combatant? key = some x ∧ y.effects.Sublist x.effects

section Shedding

variable {b c : Battle}

theorem sheds_of_combatants (he : c.effects = b.effects) (hc : c.combatants = b.combatants) :
    Sheds b c := by
  refine ⟨he, fun key y hy => ⟨y, ?_, .refl _⟩⟩
  unfold combatant? at hy ⊢
  rw [← hc]
  exact hy

theorem sheds_roll (b : Battle) (upper : UInt32) : Sheds b (b.roll upper).2 :=
  sheds_of_combatants rfl rfl

theorem sheds_depth (b : Battle) (depth : Nat) : Sheds b { b with depth } :=
  sheds_of_combatants rfl rfl

theorem sheds_clock (b : Battle) (now : Timestamp) : Sheds b { b with now } :=
  sheds_of_combatants rfl rfl

theorem sheds_alter (b : Battle) (key : String) {f : Combatant → Combatant}
    (hf : ∀ x, (f x).effects.Sublist x.effects) : Sheds b (b.alter key f) := by
  refine ⟨rfl, fun other y hy => ?_⟩
  rw [combatant?_alter] at hy
  split at hy
  · obtain ⟨x, hx, rfl⟩ := Option.map_eq_some_iff.1 hy
    exact ⟨x, hx, hf x⟩
  · exact ⟨y, hy, .refl _⟩

theorem sheds_alter_of_eq (b : Battle) (key : String) {f : Combatant → Combatant}
    (hf : ∀ x, (f x).effects = x.effects) : Sheds b (b.alter key f) := by
  refine sheds_alter b key fun x => ?_
  have hx : (f x).effects.Sublist (f x).effects := .refl _
  exact hf x ▸ hx

theorem sheds_undergo (b : Battle) (e : Event) (logged : Bool) : Sheds b (b.undergo e logged) := by
  refine ⟨(frame_undergo b e logged).effects, fun key y hy => ?_⟩
  rw [combatant?_undergo] at hy
  obtain ⟨x, hx, rfl⟩ := Option.map_eq_some_iff.1 hy
  refine ⟨x, hx, ?_⟩
  split
  · exact .refl x.effects
  · exact .refl x.effects

theorem sheds_prolong (b : Battle) (target status : String) (duration : Float) :
    Sheds b (b.prolong target status duration) :=
  sheds_alter_of_eq b target fun x => effects_refreshFirst x _ _

theorem sheds_sweep (b : Battle) (key : String) : Sheds b (b.alter key (sweep b.now)) :=
  sheds_alter b key fun _ => List.filter_sublist.map _

theorem sheds_modify (b : Battle) (key stat : String) (amount : Float) :
    Sheds b (b.alter key (·.adjustDerived stat amount)) :=
  sheds_alter_of_eq b key fun _ => rfl

theorem sheds_stamp (b : Battle) (key : String) (now : Timestamp) (ids : List Nat) :
    Sheds b (b.alter key (stamp now ids)) :=
  sheds_alter_of_eq b key fun x => effects_stamp now ids x

theorem sheds_cleanse (b : Battle) (key : String) :
    Sheds b (b.alter key fun c => { c with statuses := [] }.resetDerived) :=
  sheds_alter b key fun _ => List.nil_sublist _

theorem sheds_remove (b : Battle) (key : String) : Sheds b (b.remove key) := by
  refine ⟨rfl, fun other y hy => ⟨y, ?_, .refl _⟩⟩
  rw [combatant?_remove] at hy
  split at hy
  · cases hy
  · exact hy

end Shedding

/-! ## Soundness -/

section Soundness

variable {silent : Bool} {b c : Battle}

theorem Sheds.sound (h : Sheds b c) (hb : Sound b) : Sound c := by
  refine ⟨fun status e hk => hb.named status e (h.effects ▸ hk), fun key y hy e hmem => ?_⟩
  obtain ⟨x, hx, hsub⟩ := h.carried key y hy
  rw [h.effects]
  exact hb.registered key x hx e (hsub.subset hmem)

theorem Sound.afflict (hb : Sound b) {target status : String} {s : ActiveStatus}
    (known : b.effects.get? status = some s.effect) : Sound (b.afflict target s) := by
  refine ⟨hb.named, fun key y hy e hmem => ?_⟩
  rw [combatant?_afflict] at hy
  split at hy
  · obtain ⟨x, hx, rfl⟩ := Option.map_eq_some_iff.1 hy
    have hcases : e ∈ x.effects ∨ e = s.effect := by
      unfold Combatant.effects at hmem ⊢
      simpa using hmem
    rcases hcases with hmem | rfl
    · exact hb.registered key x hx e hmem
    · have hname : s.effect.key = status := hb.named status s.effect known
      show b.effects.get? s.effect.key = some s.effect
      rw [hname]
      exact known
  · exact hb.registered key y hy e hmem

theorem Evolves.sound (h : Evolves silent b c) (hb : Sound b) : Sound c := by
  induction h with
  | refl => exact hb
  | trans _ _ ih ih' => exact ih' (ih hb)
  | roll => exact (sheds_roll ..).sound hb
  | event => exact (sheds_undergo ..).sound hb
  | nested _ _ ih => exact (sheds_depth ..).sound (ih ((sheds_depth ..).sound hb))
  | refresh => exact (sheds_prolong ..).sound hb
  | inflict _ _ _ _ known _ _ inner ih => exact (ih hb).afflict (inner.frame.effects ▸ known)

theorem Proceeds.sound (h : Proceeds silent b c) (hb : Sound b) : Sound c := by
  induction h with
  | trans _ _ ih ih' => exact ih' (ih hb)
  | evolve h => exact h.sound hb
  | sweep => exact (sheds_sweep ..).sound hb
  | modify => exact (sheds_modify ..).sound hb
  | stamp => exact (sheds_stamp ..).sound hb
  | cleanse => exact (sheds_cleanse ..).sound hb
  | clock => exact (sheds_clock ..).sound hb

end Soundness

/-! ## Registering -/

section Registering

variable {b : Battle}

theorem get?_addEffect (e : StatusEffect) (status : String) :
    (b.addEffect e).effects.get? status =
      if e.key = status then some e else b.effects.get? status :=
  Table.get?_insert ..

theorem Sound.addEffect (hb : Sound b) {e : StatusEffect}
    (fresh : b.effects.get? e.key = none) : Sound (b.addEffect e) := by
  refine ⟨fun status e' hk => ?_, fun key x hx e' hmem => ?_⟩
  · rw [get?_addEffect] at hk
    split at hk
    · next he => cases hk; exact he
    · exact hb.named status e' hk
  · have hold := hb.registered key x hx e' hmem
    rw [get?_addEffect, if_neg, hold]
    intro he
    rw [he, hold] at fresh
    cases fresh

theorem Sound.insert (hb : Sound b) (key : String) {x : Combatant} (hx : x.statuses = []) :
    Sound (after (insert key x) b) := by
  rw [after_insert]
  split
  · exact hb
  · refine ⟨hb.named, fun other y hy => ?_⟩
    rw [combatant?_inserted] at hy
    split at hy
    · cases hy
      unfold Combatant.effects
      rw [hx]
      exact nofun
    · exact hb.registered other y hy

theorem sound_perform {command : Command} (hb : Sound b) (unmarked : command.Unmarked)
    (fresh : ∀ e, command.effect? = some e → b.effects.get? e.key = none) :
    Sound (command.perform b) := by
  cases command with
  | move m =>
    have h : Proceeds true b (m.perform b) := proceeds_perform m (.inr rfl)
    exact h.sound hb
  | addDamageType | addSkill => exact ⟨hb.named, hb.registered⟩
  | addEffect e => exact hb.addEffect (fresh e rfl)
  | insert key x => exact hb.insert key unmarked
  | add key name side => exact hb.insert key rfl
  | remove key => exact (sheds_remove b key).sound hb

/-- What an operation makes of the registered effects. -/
theorem effects_perform (command : Command) (name : String) :
    (command.perform b).effects.get? name =
      if (command.effect?.map (·.key)) = some name then command.effect?
      else b.effects.get? name := by
  cases command with
  | move m =>
    have h : Proceeds true b (m.perform b) := proceeds_perform m (.inr rfl)
    exact congrArg (fun r : Rules => r.effects.get? name) h.rules_eq
  | addEffect e =>
    refine (get?_addEffect e name).trans ?_
    simp [Command.effect?]
  | insert key x =>
    show (after (Battle.insert key x) b).effects.get? name = _
    rw [after_insert]
    split <;> rfl
  | add key side x =>
    show (after (Battle.insert key _) b).effects.get? name = _
    rw [after_insert]
    split <;> rfl
  | addDamageType | addSkill | remove => rfl

/-- Registered effects were registered in the run, if not before. -/
theorem mem_of_effects_run {commands : List Command} {status : String} {e : StatusEffect}
    (h : (run b commands).effects.get? status = some e) :
    b.effects.get? status = some e ∨ .addEffect e ∈ commands := by
  induction commands generalizing b with
  | nil => exact .inl h
  | cons command rest ih =>
    rcases ih h with h | h
    · rw [effects_perform] at h
      split at h
      · cases command <;> cases h
        exact .inr List.mem_cons_self
      · exact .inl h
    · exact .inr (List.mem_cons_of_mem _ h)

end Registering

/-! ## Runs -/

/-- In the run names of effects are registered once, and not before, and everyone enters without
statuses. -/
structure Proper (b : Battle) (commands : List Command) : Prop where
  unmarked : ∀ command ∈ commands, command.Unmarked
  once : ((commands.filterMap Command.effect?).map (·.key)).Nodup
  fresh : ∀ e ∈ commands.filterMap Command.effect?, b.effects.get? e.key = none

section Runs

variable {b : Battle} {command : Command} {commands : List Command}

theorem Proper.head (h : Proper b (command :: commands)) : ∀ e, command.effect? = some e →
    b.effects.get? e.key = none := by
  intro e he
  refine h.fresh e ?_
  rw [List.filterMap_cons, he]
  exact List.mem_cons_self

theorem Proper.tail (h : Proper b (command :: commands)) :
    Proper (command.perform b) commands := by
  refine ⟨fun c hc => h.unmarked c (List.mem_cons_of_mem _ hc), ?_, fun e he => ?_⟩
  · have once := h.once
    rw [List.filterMap_cons] at once
    split at once
    · exact once
    · exact (List.nodup_cons.1 once).2
  · have hold : b.effects.get? e.key = none := by
      refine h.fresh e ?_
      rw [List.filterMap_cons]
      split
      · exact he
      · exact List.mem_cons_of_mem _ he
    rw [effects_perform]
    split
    · next heq =>
      -- The name would be registered twice.
      obtain ⟨e', he', hkey⟩ := Option.map_eq_some_iff.1 heq
      have once := h.once
      rw [List.filterMap_cons, he', List.map_cons, List.nodup_cons] at once
      exact absurd (List.mem_map.2 ⟨e, he, hkey.symm⟩) once.1
    · exact hold

theorem sound_run (h : Proper b commands) (hb : Sound b) : Sound (run b commands) := by
  induction commands generalizing b with
  | nil => exact hb
  | cons command rest ih =>
    exact ih h.tail (sound_perform hb (h.unmarked command List.mem_cons_self) h.head)

theorem sound_new (settings : Settings) (vocabulary : Vocabulary) (now : Timestamp) (log : Log) :
    Sound (new settings vocabulary now log) :=
  ⟨nofun, nofun⟩

theorem proper_new (settings : Settings) (vocabulary : Vocabulary) (now : Timestamp) (log : Log)
    (unmarked : ∀ command ∈ commands, command.Unmarked)
    (once : ((commands.filterMap Command.effect?).map (·.key)).Nodup) :
    Proper (new settings vocabulary now log) commands :=
  ⟨unmarked, once, fun _ _ => rfl⟩

end Runs

end Skirmish.Battle
