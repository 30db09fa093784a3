import Skirmish.Proofs.Battle.Ticks

/-!
# The course of a battle

`Proceeds silent b c` adds to the evolution by formulas (`Evolves`) what ticks, cleansing and the
clock do to a battle. `Move` names the operations that define nothing and let no one enter or
leave, `Command` names all of them, and `run` performs commands one after another, whether they
succeed or fail.

1. `evolves_perform`, `proceeds_perform`: a move is such a course, and most are evolutions.
2. `Proceeds.rules_eq`, `Proceeds.contains_eq`: on which rules and combatants stay.
-/

namespace Skirmish.Battle

open Skirmish.Formula

/-! ## Rules -/

/-- What a battle is fought by. -/
structure Rules where
  settings : Settings
  vocabulary : Vocabulary
  damageTypes : Table DamageType
  effects : Table StatusEffect
  skills : Table Skill

/-- The rules of a battle. -/
def rules (b : Battle) : Rules := ⟨b.settings, b.vocabulary, b.damageTypes, b.effects, b.skills⟩

theorem Frame.rules_eq {b c : Battle} (h : Frame b c) : c.rules = b.rules := by
  unfold rules
  rw [h.settings, h.vocabulary, h.damageTypes, h.effects, h.skills]

/-! ## The relation -/

/-- What operations can make of a battle. -/
inductive Proceeds (silent : Bool) : Battle → Battle → Prop
  | trans {b c d : Battle} : Proceeds silent b c → Proceeds silent c d → Proceeds silent b d
  | evolve {b c : Battle} (h : Evolves silent b c) : Proceeds silent b c
  | sweep (b : Battle) (key : String) : Proceeds silent b (b.alter key (sweep b.now))
  | modify (b : Battle) (key stat : String) (amount : Float) :
      Proceeds silent b (b.alter key (·.adjustDerived stat amount))
  | stamp (b : Battle) (key : String) (now : Timestamp) (ids : List Nat) :
      Proceeds silent b (b.alter key (stamp now ids))
  | cleanse (b : Battle) (key : String) :
      Proceeds silent b (b.alter key fun c => { c with statuses := [] }.resetDerived)
  | clock (b : Battle) (now : Timestamp) : Proceeds silent b { b with now }

namespace Proceeds

variable {silent : Bool} {b c : Battle}

theorem refl (b : Battle) : Proceeds silent b b := .evolve (.refl b)

instance (silent : Bool) : IsPreorder Battle (Proceeds silent) where
  refl := .refl
  trans _ _ _ := .trans

theorem rules_eq (h : Proceeds silent b c) : c.rules = b.rules := by
  induction h with
  | trans _ _ ih ih' => exact ih'.trans ih
  | evolve h => exact h.frame.rules_eq
  | sweep | modify | stamp | cleanse | clock => rfl

theorem depth_eq (h : Proceeds silent b c) : c.depth = b.depth := by
  induction h with
  | trans _ _ ih ih' => exact ih'.trans ih
  | evolve h => exact h.frame.depth
  | sweep | modify | stamp | cleanse | clock => rfl

theorem levels_eq (h : Proceeds silent b c) : c.levels = b.levels := by
  have hs : c.settings = b.settings := congrArg Rules.settings h.rules_eq
  unfold levels
  rw [hs, h.depth_eq]

theorem below_eq (h : Proceeds silent b c) : c.below = b.below := by
  unfold Battle.below
  rw [h.levels_eq]

/-- No one enters and no one leaves. -/
theorem contains_eq (h : Proceeds silent b c) (key : String) : c.contains key = b.contains key := by
  induction h with
  | trans _ _ ih ih' => exact ih'.trans ih
  | evolve h => exact h.frame.contains_eq key
  | sweep | modify | stamp | cleanse => exact contains_alter ..
  | clock => rfl

end Proceeds

/-! ## Ticks -/

section Ticks

variable {silent : Bool} {n : Nat} {resolver : Resolver}

theorem Works.proceeds {b c : Battle} (h : Works silent b c) : Proceeds silent b c := by
  induction h with
  | trans _ _ ih ih' => exact ih.trans ih'
  | evolve h => exact .evolve h
  | modify b key stat amount => exact .modify b key stat amount

variable (hr : ∀ m, m + 1 = n → ∀ e, Keeps (At silent m) (resolver e))

include hr

theorem passes_tick (key : String) : Passes (Proceeds silent) n (tick resolver key) := by
  intro b hn
  obtain ⟨c, hworks, htick⟩ := works_tick hr key b hn
  rw [htick]
  have hsweep : Proceeds silent b (b.alter key (sweep b.now)) := .sweep b key
  exact (hsweep.trans hworks.proceeds).trans (.stamp c key b.now _)

theorem passes_tickAll : Passes (Proceeds silent) n (tickAll resolver) :=
  fun b hn => passes_forEach .refl .trans Proceeds.levels_eq (passes_tick hr) b hn

end Ticks

/-! ## Moves -/

/-- An operation that defines nothing and lets no one enter or leave. -/
inductive Move
  | damage (target : String) (amount : Float) (type source : String) (logged : Bool)
  | heal (target : String) (amount : Float) (source : String) (logged : Bool)
  | cast (caster target skill : String)
  | apply (target status source : String) (duration : Float) (values : List Float)
  | update
  | updateOne (key : String)
  | cleanse (key : String)
  | compound (key text : String)
  | evaluate (text : String)
  | resolve (e : Expr)
  | tryDodge (d : DamageType) (source target : String)
  | tryMitigation (d : DamageType) (raw : Float) (source target : String)
  | advance (ms : Int64)
  | setTime (ms : Int64)

namespace Move

/-- The battle after a move, whether it succeeds or fails. -/
def perform (b : Battle) : Move → Battle
  | damage target amount type source logged =>
    after (dealDamage target amount type source logged) b
  | heal target amount source logged => after (Battle.heal target amount source logged) b
  | cast caster target skill => after (castSkill caster target skill) b
  | apply target status source duration values =>
    after (applyStatus target status source duration values) b
  | update => after Battle.update b
  | updateOne key => after (Battle.updateOne key) b
  | cleanse key => after (Battle.cleanse key) b
  | compound key text => after (compoundStat key text) b
  | evaluate text => after (Battle.evaluate text) b
  | resolve e => after (b.here e) b
  | tryDodge d source target => after (Battle.tryDodge d source target) b
  | tryMitigation d raw source target => after (Battle.tryMitigation d raw source target) b
  | advance ms => b.advance ms
  | setTime ms => b.setTime ms

/-- Damage and healing from outside are to be logged. -/
def Told : Move → Prop
  | damage _ _ _ _ logged => logged = true
  | heal _ _ _ logged => logged = true
  | _ => True

/-- Whether a move acts by formulas alone: it lets nobody tick, cleanses nobody and leaves the
clock alone. -/
def isPlain : Move → Bool
  | update | updateOne _ | cleanse _ | advance _ | setTime _ => false
  | _ => true

end Move

section Moves

variable {silent : Bool} {α : Type} (b : Battle)

variable {b} in
theorem require_of_contains {key : String} (h : b.contains key = true) :
    require key b = .ok () b := by
  unfold require
  rw [if_pos h]

variable {b} in
theorem require_of_absent {key : String} (h : ¬b.contains key = true) :
    require key b = .error (.unknownEntity key) b := by
  unfold require
  rw [if_neg h]

theorem after_require (key : String) (k : Operation α) :
    after (require key >>= fun _ => k) b = if b.contains key then after k b else b := by
  by_cases h : b.contains key = true
  · rw [if_pos h, after_bind_of_ok (require_of_contains h)]
  · rw [if_neg h, after_bind_of_error (require_of_absent h)]

variable {b} in
theorem act_of_ok {action : Action Battle α} {c : Battle} {a : α} (h : action b = .ok a c) :
    act action b = .ok a c := by
  unfold act
  rw [h]

variable {b} in
theorem act_of_error {action : Action Battle α} {c : Battle} {e : EvalError}
    (h : action b = .error e c) : act action b = .error (.eval e) c := by
  unfold act
  rw [h]

theorem after_act (action : Action Battle α) : after (act action) b = after action b := by
  unfold after act
  cases action b <;> rfl

theorem finish_apply (pass : Pass) :
    finish pass b =
      match (pass b).1 with
      | [] => .ok () (pass b).2
      | e :: _ => .error (.eval e) (pass b).2 := rfl

theorem after_finish (pass : Pass) : after (finish pass) b = (pass b).2 := by
  unfold after
  rw [finish_apply]
  cases (pass b).1 <;> rfl

theorem after_get_bind (f : Battle → Operation α) : after (get >>= f) b = after (f b) b := rfl

variable {b}

/-- What holds of an operation, and of doing nothing, holds where a combatant is required. -/
theorem rel_require {R : Battle → Battle → Prop} [IsPreorder Battle R] {key : String}
    {k : Operation α} (h : R b (after k b)) : R b (after (require key >>= fun _ => k) b) := by
  rw [after_require]
  split
  · exact h
  · exact refl_of R b

/-- An action in the present battle, as an operation. -/
theorem evolves_act {action : Battle → Action Battle α}
    (h : Evolves silent b (after (action b) b)) :
    Evolves silent b (after (get >>= fun b => act (action b)) b) := by
  rw [after_get_bind, after_act]
  exact h

theorem evolves_compoundStat (key text : String) :
    Evolves silent b (after (compoundStat key text) b) := by
  unfold compoundStat
  refine rel_require ?_
  rw [after_get_bind]
  cases Expr.parse b.vocabulary text with
  | error e => exact .refl b
  | ok e =>
    rw [after_act]
    exact keeps_bind (keeps_resolve_world b.levels _) (fun _ => keeps_lift_battle _) b rfl

theorem after_evaluate {text : String} {e : Expr} (h : Expr.parse b.vocabulary text = .ok e) :
    after (Battle.evaluate text) b = after (b.here e) b := by
  unfold after Battle.evaluate Formula.evaluate here
  rw [h]
  dsimp only
  cases e.resolve (world b.levels) b <;> rfl

theorem evolves_evaluate (text : String) :
    Evolves silent b (after (Battle.evaluate text) b) := by
  cases h : Expr.parse b.vocabulary text with
  | error err =>
    have he : after (Battle.evaluate text) b = b := by
      unfold after Battle.evaluate Formula.evaluate
      rw [h]
    rw [he]
    exact .refl b
  | ok e =>
    rw [after_evaluate h]
    exact (evolves_resolve b e).mono silent

/-- A plain move is an evolution of a battle, and a silent one only if it is not told. -/
theorem evolves_perform {m : Move} (plain : m.isPlain = true) (told : m.Told ∨ silent = true) :
    Evolves silent b (m.perform b) := by
  unfold Move.perform
  cases m with
  | damage target amount type source logged =>
    exact rel_require (evolves_act (evolves_damage b target amount type source told))
  | heal target amount source logged =>
    exact rel_require (evolves_restore b target amount source told)
  | cast caster target skill =>
    exact rel_require (rel_require
      (evolves_act ((evolves_useSkill b caster target skill).mono silent)))
  | apply target status source duration values =>
    exact rel_require (evolves_act ((evolves_inflict b target status source duration values).mono
      silent))
  | compound key text => exact evolves_compoundStat key text
  | evaluate text => exact evolves_evaluate text
  | resolve e => exact (evolves_resolve b e).mono silent
  | tryDodge d source target =>
    exact keeps_isDodged at_roll (fun _ _ => keeps_resolveSkill (keeps_resolve_world b.levels)) b rfl
  | tryMitigation d raw source target =>
    exact keeps_outcome at_roll (fun _ _ => keeps_resolveSkill (keeps_resolve_world b.levels))
      (fun _ _ => keeps_resolveSkill (keeps_resolve_world b.levels))
      (fun _ _ _ => keeps_resolveMitigation (keeps_resolve_world b.levels)) b rfl
  | update | updateOne | cleanse | advance | setTime => cases plain

theorem proceeds_finish {pass : Battle → Pass} (h : Passes (Proceeds silent) b.levels (pass b)) :
    Proceeds silent b (after (get >>= fun b => finish (pass b)) b) := by
  rw [after_get_bind, after_finish]
  exact h b rfl

/-- **Moves.** A move is a course of a battle, and a silent one only if it is not told. -/
theorem proceeds_perform (m : Move) (told : m.Told ∨ silent = true) :
    Proceeds silent b (m.perform b) := by
  cases m with
  | update => exact proceeds_finish (passes_tickAll (keeps_below b silent))
  | updateOne key => exact rel_require (proceeds_finish (passes_tick (keeps_below b silent) key))
  | cleanse key => exact rel_require (.cleanse b key)
  | advance ms => exact .clock b _
  | setTime ms => exact .clock b _
  | damage | heal | cast | apply | compound | evaluate | resolve | tryDodge | tryMitigation =>
    exact .evolve (evolves_perform rfl told)

end Moves

/-! ## Runs -/

/-- An operation. -/
inductive Command
  | move (m : Move)
  | addDamageType (d : DamageType)
  | addEffect (e : StatusEffect)
  | addSkill (s : Skill)
  | insert (key : String) (c : Combatant)
  | add (key name : String) (side : Side)
  | remove (key : String)

namespace Command

/-- The battle after an operation, whether it succeeds or fails. -/
def perform (b : Battle) : Command → Battle
  | move m => m.perform b
  | addDamageType d => b.addDamageType d
  | addEffect e => b.addEffect e
  | addSkill s => b.addSkill s
  | insert key c => after (Battle.insert key c) b
  | add key name side => after (Battle.add key name side) b
  | remove key => b.remove key

/-- Damage and healing from outside are to be logged. -/
def Told : Command → Prop
  | move m => m.Told
  | _ => True

/-- Whoever enters has no statuses yet. -/
def Unmarked : Command → Prop
  | insert _ c => c.statuses = []
  | _ => True

/-- The status effect that is registered, if one is. -/
def effect? : Command → Option StatusEffect
  | addEffect e => some e
  | _ => none

end Command

/-- The battle after some operations. -/
def run (b : Battle) (commands : List Command) : Battle := commands.foldl Command.perform b

@[simp] theorem run_nil (b : Battle) : run b [] = b := rfl

@[simp] theorem run_cons (b : Battle) (c : Command) (commands : List Command) :
    run b (c :: commands) = run (c.perform b) commands := rfl

theorem run_concat (b : Battle) (commands : List Command) (c : Command) :
    run b (commands ++ [c]) = c.perform (run b commands) := by
  unfold run
  rw [List.foldl_append]
  rfl

/-- Inserting puts a combatant under a key that is free and is refused otherwise. -/
theorem after_insert (b : Battle) (key : String) (x : Combatant) :
    after (insert key x) b =
      if b.contains key then b else { b with combatants := b.combatants.insert key x } := by
  unfold after insert
  by_cases h : b.contains key = true
  · rw [if_pos h, if_pos h]
  · rw [if_neg h, if_neg h]

theorem combatant?_inserted (b : Battle) (key other : String) (x : Combatant) :
    ({ b with combatants := b.combatants.insert key x } : Battle).combatant? other =
      if key = other then some x else b.combatant? other :=
  Table.get?_insert ..

end Skirmish.Battle
