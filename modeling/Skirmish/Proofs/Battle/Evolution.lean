import Skirmish.Battle.Effect
import Skirmish.Proofs.Formula.Keeping

/-!
# What formulas can make of a battle

`Evolves silent b c`: the battle `c` comes from `b` by rolls, by events (damage, dodges, healing),
by statuses refreshed or added, and by such changes one level deeper. Everything that a formula
does is of this kind (`Proofs.Battle.Reach`), so what is proved by induction on `Evolves` holds of
all formulas, however they set off each other.

With `silent`, damage and healing may go unrecorded.
-/

namespace Skirmish.Battle

open Skirmish.Formula

/-! ## Events -/

/-- Whose hit points an event changes, and by how much. -/
def Event.change? : Event → Option (String × Float)
  | damage target _ _ o => some (target, -o.amount)
  | dodge _ _ _ => none
  | heal target _ amount => some (target, amount)

/-- Changes hit points as the event says. -/
def suffer (b : Battle) (e : Event) : Battle :=
  match e.change? with
  | some (target, delta) => b.alter target (·.adjustPersistent b.settings.hpStat delta)
  | none => b

/-- Lets an event happen. -/
def undergo (b : Battle) (e : Event) (logged : Bool) : Battle :=
  if logged then (b.suffer e).record e else b.suffer e

/-- Everyone whose hit points an event changes is there. -/
def Concerns (b : Battle) (e : Event) : Prop :=
  ∀ target delta, e.change? = some (target, delta) → b.contains target = true

/-! ## Statuses -/

/-- How many instances of a status someone may carry, where the definition fixes the number. -/
def StatusEffect.limit? (e : StatusEffect) : Option Nat :=
  match e.stacking, e.maxStacks with
  | .refresh, _ => some 1
  | .none, _ => some 1
  | .independent, some (.leaf (.number x)) => if stackLimit x = 0 then none else some (stackLimit x)
  | .independent, _ => none

/-- Puts an instance of a status on a target, as the latest one. -/
def afflict (b : Battle) (target : String) (s : ActiveStatus) : Battle :=
  { b with nextStatusId := b.nextStatusId + 1 }.alter target fun c =>
    { c with statuses := c.statuses ++ [s] }

/-- Puts off the end of the first instance of a status. -/
def prolong (b : Battle) (target status : String) (duration : Float) : Battle :=
  b.alter target fun c =>
    { c with statuses := refreshFirst status (removalTime b.now duration) c.statuses }

/-! ## The relation -/

/-- What formulas can make of a battle. -/
inductive Evolves (silent : Bool) : Battle → Battle → Prop
  | refl (b : Battle) : Evolves silent b b
  | trans {b c d : Battle} : Evolves silent b c → Evolves silent c d → Evolves silent b d
  | roll (b : Battle) (upper : UInt32) : Evolves silent b (b.roll upper).2
  | event {b : Battle} {e : Event} (logged : Bool) (there : b.Concerns e)
      (told : logged = true ∨ silent = true) : Evolves silent b (b.undergo e logged)
  | nested {b c : Battle} (room : b.depth < b.settings.reentryLimit)
      (inner : Evolves silent { b with depth := b.depth + 1 } c) :
      Evolves silent b { c with depth := c.depth - 1 }
  | refresh {b : Battle} {target status : String} {e : StatusEffect} {x : Combatant}
      (duration : Float) (known : b.effects.get? status = some e) (kind : e.stacking = .refresh)
      (there : b.combatant? target = some x) (has : x.hasStatus status = true) :
      Evolves silent b (b.prolong target status duration)
  /-- An instance is added after the formulas of its effect were evaluated. Where the definition
  fixes a limit, it was not reached before, and the interval is all that was evaluated. -/
  | inflict {b c : Battle} {target status : String} {e : StatusEffect} {x : Combatant}
      (source : String) (duration : Float) (values : List Float) (interval : Int64)
      (known : b.effects.get? status = some e) (there : b.combatant? target = some x)
      (room : ∀ n, e.limit? = some n → x.statusCount status < n ∧ ∃ v seconds,
        deeper (resolveStatus b.below e.interval source target values) b = .ok v c ∧
          v.asNumber = .ok seconds)
      (inner : Evolves silent b c) :
      Evolves silent b (c.afflict target
        { id := c.nextStatusId, effect := e, source, lastTick := none,
          removal := removalTime c.now duration, interval, values })

instance (silent : Bool) : IsPreorder Battle (Evolves silent) where
  refl := .refl
  trans _ _ _ := .trans

/-- What is told may as well not be. -/
theorem Evolves.mono {b c : Battle} (h : Evolves false b c) (silent : Bool) :
    Evolves silent b c := by
  induction h with
  | refl b => exact .refl b
  | trans _ _ ih ih' => exact ih.trans ih'
  | roll b upper => exact .roll b upper
  | event logged there told => exact .event logged there (.inl (told.resolve_right nofun))
  | nested room _ ih => exact .nested room ih
  | refresh duration known kind there has => exact .refresh duration known kind there has
  | inflict source duration values interval known there room _ ih =>
    exact .inflict source duration values interval known there room ih

/-! ## What the changes are seen at -/

theorem contains_of_combatant? {b : Battle} {key : String} {x : Combatant}
    (h : b.combatant? key = some x) : b.contains key = true :=
  Option.isSome_iff_exists.2 ⟨x, h⟩

section Seen

variable (b : Battle)

/-- Events change combatants and the log alone. -/
theorem undergo_eq (e : Event) (logged : Bool) :
    ∃ combatants log, b.undergo e logged = { b with combatants, log } := by
  unfold undergo suffer
  cases e.change? <;> cases logged <;> exact ⟨_, _, rfl⟩

theorem log_undergo (e : Event) (logged : Bool) :
    (b.undergo e logged).log = if logged then b.log.record e else b.log := by
  unfold undergo suffer
  cases e.change? <;> cases logged <;> rfl

theorem combatant?_undergo (e : Event) (logged : Bool) (key : String) :
    (b.undergo e logged).combatant? key =
      (b.combatant? key).map fun c =>
        if e.change?.any (·.1 = key) then
          c.adjustPersistent b.settings.hpStat ((e.change?.map (·.2)).getD 0)
        else c := by
  have hs : (b.undergo e logged).combatant? key = (b.suffer e).combatant? key := by
    unfold undergo; cases logged <;> rfl
  rw [hs]
  unfold suffer
  cases e.change? with
  | none => simp
  | some p =>
    obtain ⟨target, delta⟩ := p
    simp only [combatant?_alter, Option.any_some, decide_eq_true_eq, Option.map_some,
      Option.getD_some]
    by_cases h : target = key
    · rw [if_pos h.symm]; simp [h]
    · rw [if_neg (Ne.symm h)]; simp [h]

@[simp] theorem combatant?_afflict (target : String) (s : ActiveStatus) (key : String) :
    (b.afflict target s).combatant? key =
      if key = target then
        (b.combatant? key).map fun c => { c with statuses := c.statuses ++ [s] }
      else b.combatant? key := by
  unfold afflict
  rw [combatant?_alter]
  rfl

@[simp] theorem combatant?_prolong (target status : String) (duration : Float) (key : String) :
    (b.prolong target status duration).combatant? key =
      if key = target then
        (b.combatant? key).map fun c =>
          { c with statuses := refreshFirst status (removalTime b.now duration) c.statuses }
      else b.combatant? key := by
  unfold prolong
  rw [combatant?_alter]

end Seen

end Skirmish.Battle
