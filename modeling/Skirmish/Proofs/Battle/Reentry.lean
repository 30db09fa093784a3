import Skirmish.Proofs.Battle.Alike
import Skirmish.Proofs.Battle.Course

/-!
# Re-entry

Formulas act on a battle from within each other, and the depth of a battle counts how far.

1. `watch` puts an alarm in front of an action that goes off when the battle is deeper than its
   limit. With alarms in front of every evaluation and of every action that a formula takes, and
   with anything at all in place of the evaluations after the levels that are left, an operation
   still does what it does (`within_watched`): no alarm goes off, and the recursion is over by then.
2. `Command.depth_perform`: an operation ends at the depth it began at, also when it fails.
-/

namespace Skirmish.Battle

open Skirmish.Formula

/-! ## Moves and what they answer -/

namespace Move

/-- How a move fails. -/
def Fault : Move → Type
  | evaluate _ => FormulaError
  | resolve _ | tryDodge .. | tryMitigation .. => EvalError
  | _ => BattleError

/-- What a move answers. -/
def Reply : Move → Type
  | damage .. => Option Outcome
  | cast .. | evaluate _ | resolve _ => Value
  | apply .. | tryDodge .. => Bool
  | compound .. => Float
  | tryMitigation .. => Outcome
  | _ => Unit

/-- The operation that a move is. -/
def operation : (m : Move) → EStateM m.Fault Battle m.Reply
  | damage target amount type source logged => dealDamage target amount type source logged
  | heal target amount source logged => Battle.heal target amount source logged
  | cast caster target skill => castSkill caster target skill
  | apply target status source duration values => applyStatus target status source duration values
  | update => Battle.update
  | updateOne key => Battle.updateOne key
  | cleanse key => Battle.cleanse key
  | compound key text => compoundStat key text
  | evaluate text => Battle.evaluate text
  | resolve e => fun b => b.here e b
  | tryDodge d source target => Battle.tryDodge d source target
  | tryMitigation d raw source target => Battle.tryMitigation d raw source target
  | advance ms => modify (·.advance ms)
  | setTime ms => modify (·.setTime ms)

theorem perform_eq_after (m : Move) (b : Battle) : m.perform b = after m.operation b := by
  cases m <;> rfl

/-- The operation, with formulas evaluated in the world `w` of a battle and those that it sets off
itself by `r`. -/
def within (w : Battle → World Battle) (r : Battle → Resolver) :
    (m : Move) → EStateM m.Fault Battle m.Reply
  | damage target amount type source logged => do
    require target
    act (Battle.damage (r (← get)) target amount type source logged)
  | heal target amount source logged => Battle.heal target amount source logged
  | cast caster target skill => do
    require caster
    require target
    act (useSkill (r (← get)) caster target skill)
  | apply target status source duration values => do
    require target
    act (inflict (r (← get)) target status source duration values)
  | update => do finish (tickAll (r (← get)))
  | updateOne key => do
    require key
    finish (tick (r (← get)) key)
  | cleanse key => Battle.cleanse key
  | compound key text => do
    require key
    let b ← get
    match Expr.parse b.vocabulary text with
    | .error e => throw (.invalidFormula text e)
    | .ok e =>
      act do lift (← (e.bindCompound b.vocabulary b.hasStat key).resolve (w b)).asNumber
  | evaluate text => fun b => Formula.evaluate b.vocabulary (w b) text b
  | resolve e => fun b => e.resolve (w b) b
  | tryDodge d source target => fun b => isDodged (fun e => e.resolve (w b)) d source target b
  | tryMitigation d raw source target => fun b =>
    outcome (fun e => e.resolve (w b)) d raw source target b
  | advance ms => modify (·.advance ms)
  | setTime ms => modify (·.setTime ms)

theorem operation_eq_within (m : Move) :
    m.operation = m.within (fun b => world b.levels) below := by
  cases m <;> rfl

end Move

/-! ## Alarms -/

section Alarms

variable (alarm : Battle → EvalError × Battle) {α : Type}

/-- Takes an action in a battle that is not too deep. In one that is, the alarm goes off. -/
def watch (act : Action Battle α) : Action Battle α := fun b =>
  if b.settings.reentryLimit < b.depth then .error (alarm b).1 (alarm b).2 else act b

/-- A world with an alarm in front of each of its actions. -/
def watched (w : World Battle) : World Battle :=
  { w with
    harm := fun target source type amount => watch alarm (w.harm target source type amount)
    heal := fun target source amount => watch alarm (w.heal target source amount)
    cast := fun caster target skill => watch alarm (w.cast caster target skill)
    inflict := fun target source status duration values =>
      watch alarm (w.inflict target source status duration values) }

/-- Evaluates formulas with alarms everywhere. After `n` levels evaluations go `beyond`. -/
def watchedResolver (beyond : Resolver) : Nat → Resolver
  | 0 => beyond
  | n + 1 => fun e => watch alarm (e.resolve (watched alarm (worldWith (watchedResolver beyond n))))

/-- The world with alarms everywhere. -/
def watchedWorld (beyond : Resolver) (n : Nat) : World Battle :=
  watched alarm (worldWith (watchedResolver alarm beyond n))

/-- Whatever is done one level deeper is done within the limit. -/
theorem deeper_watch (act : Action Battle α) : deeper (watch alarm act) = deeper act := by
  funext b
  unfold deeper watch
  by_cases hd : b.settings.reentryLimit ≤ b.depth
  · rw [if_pos hd, if_pos hd]
  · rw [if_neg hd, if_neg hd]
    have hin : ¬b.settings.reentryLimit < b.depth + 1 := by omega
    simp only [if_neg hin]

end Alarms

/-! ## One battle -/

/-- One and the same battle, with these settings and at this depth. -/
abbrev Same : Settings → Nat → Battle → Battle → Prop := Alike fun _ => Eq

section Same

variable {S : Settings} {d : Nat} {b c : Battle} {ε α : Type}

theorem same_self (hs : b.settings = S) (hd : b.depth = d) : Same S d b b := by
  refine ⟨rfl, fun key => ?_, hs, hd⟩
  cases b.combatant? key with
  | none => exact .none
  | some x => exact .some ⟨rfl, rfl⟩

theorem Alike.eq_of_same (h : Same S d b c) : b = c := by
  have hcombatants : b.combatants = c.combatants := by
    refine Table.ext_get? fun key => ?_
    obtain ⟨hb, hc⟩ | ⟨x, y, hb, hc, hxy⟩ := h.cases_combatant? key
    · exact hb.trans hc.symm
    · refine hb.trans (Eq.trans ?_ hc.symm)
      rw [hxy.eq, ← hxy.statuses]
  rw [h.eq, ← hcombatants]

/-- Actions that run alongside on one battle do the same to it. -/
theorem eq_of_simulates {action action' : EStateM ε Battle α}
    (h : Simulates (Same b.settings b.depth) action action') : action b = action' b := by
  obtain ⟨x, y, c, c', hb, hb', value, state⟩ | ⟨e, c, c', hb, hb', state⟩ :=
    h.ends (same_self rfl rfl)
  · rw [hb, hb', value, state.eq_of_same]
  · rw [hb, hb', state.eq_of_same]

/-- How actions on one battle go on may depend on that battle. -/
theorem simulates_get_bind {k k' : Battle → EStateM ε Battle α}
    (h : ∀ b, b.settings = S → b.depth = d → Simulates (Same S d) (k b) (k' b)) :
    Simulates (Same S d) (get >>= k) (get >>= k') := by
  intro b c hbc
  obtain rfl := hbc.eq_of_same
  exact h b hbc.settings hbc.depth b b hbc

end Same

/-! ## Evaluations with alarms -/

section Watching

variable {V : StatusRelation} {S : Settings} {d : Nat} {α : Type}
  (alarm : Battle → EvalError × Battle) (beyond : Resolver)

theorem simulates_watch (hd : d ≤ S.reentryLimit) {action action' : Action Battle α}
    (h : Simulates (Alike V S d) action action') :
    Simulates (Alike V S d) (watch alarm action) action' := by
  intro b c hbc
  unfold watch
  rw [if_neg (by rw [hbc.settings, hbc.depth]; omega)]
  exact h b c hbc

theorem simulates_watched (hd : d ≤ S.reentryLimit) {w w' : World Battle}
    (h : w.Simulates w' (Alike V S d)) : (watched alarm w).Simulates w' (Alike V S d) :=
  { h with
    harm := fun _ _ _ _ => simulates_watch alarm hd (h.harm _ _ _ _)
    heal := fun _ _ _ => simulates_watch alarm hd (h.heal _ _ _)
    cast := fun _ _ _ => simulates_watch alarm hd (h.cast _ _ _)
    inflict := fun _ _ _ _ _ => simulates_watch alarm hd (h.inflict _ _ _ _ _) }

/-- **Levels.** In battles with no more than `m` and `n` levels left, the world with alarms and `n`
levels does what the world with `m` levels does. The induction is on the levels left; where there
are none, nothing goes deeper in either world. -/
theorem simulates_watchedWorld (hV : Blind V) {m n : Nat} (hd : d ≤ S.reentryLimit)
    (hm : S.reentryLimit - d ≤ m) (hn : S.reentryLimit - d ≤ n) :
    (watchedWorld alarm beyond n).Simulates (world m) (Alike V S d) := by
  induction h : S.reentryLimit - d generalizing d m n with
  | zero =>
    have hlast (r r' : Resolver) : d < S.reentryLimit →
        ∀ e, Simulates (Alike V S (d + 1)) (r e) (r' e) := fun hlt => by omega
    cases m with
    | zero => exact simulates_watched alarm hd (simulates_worldWith (hlast _ _) hV)
    | succ m => exact simulates_watched alarm hd (simulates_worldWith (hlast _ _) hV)
  | succ k ih =>
    obtain ⟨m, rfl⟩ : ∃ m', m = m' + 1 := ⟨m - 1, by omega⟩
    obtain ⟨n, rfl⟩ : ∃ n', n = n' + 1 := ⟨n - 1, by omega⟩
    refine simulates_watched alarm hd (simulates_worldWith (fun hlt e => ?_) hV)
    exact simulates_watch alarm hlt
      (simulates_resolve (ih hlt (by omega) (by omega) (by omega)) e)

theorem simulates_watchedResolver (hV : Blind V) {m n : Nat} (hm : S.reentryLimit - d ≤ m)
    (hn : S.reentryLimit - d ≤ n) (hd : d < S.reentryLimit) (e : Expr) :
    Simulates (Alike V S (d + 1)) (watchedResolver alarm beyond n e)
      (e.resolve (world (m - 1))) := by
  obtain ⟨n, rfl⟩ : ∃ n', n = n' + 1 := ⟨n - 1, by omega⟩
  exact simulates_watch alarm hd (simulates_resolve
    (simulates_watchedWorld alarm beyond hV hd (by omega) (by omega)) e)

end Watching

/-! ## Moves with alarms -/

section Moves

variable {S : Settings} {d : Nat} {α : Type}

theorem simulates_require (key : String) : Simulates (Same S d) (require key) (require key) := by
  intro b c h
  unfold require
  rw [h.contains_eq]
  split
  · exact .ok rfl h
  · exact .error _ h

theorem simulates_act {action action' : Action Battle α}
    (h : Simulates (Same S d) action action') :
    Simulates (Same S d) (act action) (act action') := by
  intro b c hbc
  unfold act
  obtain ⟨x, y, b', c', hb, hc, value, state⟩ | ⟨e, b', c', hb, hc, state⟩ := h.ends hbc
  · rw [hb, hc]
    exact .ok value state
  · rw [hb, hc]
    exact .error _ state

theorem simulates_finish {pass pass' : Pass} (h : Alongside (Same S d) pass pass') :
    Simulates (Same S d) (finish pass) (finish pass') := by
  intro b c hbc
  obtain ⟨hfaults, hbattle⟩ := h b c hbc
  rw [finish_apply, finish_apply, hfaults]
  cases (pass' c).1 with
  | nil => exact .ok rfl hbattle
  | cons e rest => exact .error _ hbattle

/-- A move runs alongside itself. -/
theorem simulates_operation (m : Move) : Simulates (Same S d) m.operation m.operation := by
  intro b c h
  obtain rfl := h.eq_of_same
  have hm : Proceeds true b (after m.operation b) :=
    m.perform_eq_after b ▸ proceeds_perform m (.inr rfl)
  have hs : (after m.operation b).settings = S :=
    (congrArg Rules.settings hm.rules_eq).trans h.settings
  have hd : (after m.operation b).depth = d := hm.depth_eq.trans h.depth
  cases h : m.operation b with
  | ok a b' =>
    rw [after_of_ok h] at hs hd
    exact .ok rfl (same_self hs hd)
  | error e b' =>
    rw [after_of_error h] at hs hd
    exact .error e (same_self hs hd)

section Ticks

variable {r r' : Resolver}
  (hr : d < S.reentryLimit → ∀ e, Simulates (Same S (d + 1)) (r e) (r' e))

include hr

theorem alongside_tick (key : String) : Alongside (Same S d) (tick r key) (tick r' key) := by
  intro b c h
  obtain rfl := h.eq_of_same
  cases hx : b.combatant? key with
  | none =>
    rw [tick_of_absent r key hx, tick_of_absent r' key hx]
    exact ⟨rfl, h⟩
  | some x =>
    rw [tick_eq r key hx, tick_eq r' key hx]
    have hsweep : Same S d (b.alter key (sweep b.now)) (b.alter key (sweep b.now)) :=
      same_self h.settings h.depth
    obtain ⟨hfaults, hbattle⟩ := alongside_work hr key (jobs b.now x.statuses) _ _ hsweep
    refine ⟨hfaults, ?_⟩
    rw [← hbattle.eq_of_same]
    exact same_self hbattle.settings hbattle.depth

theorem alongside_tickAll : Alongside (Same S d) (tickAll r) (tickAll r') := by
  intro b c h
  unfold tickAll
  rw [h.names_eq]
  exact alongside_forEach _ (alongside_tick hr) b c h

end Ticks

variable {w w' : Battle → World Battle} {r r' : Battle → Resolver}

/-- Where formulas run alongside, moves do. -/
theorem simulates_within
    (hw : ∀ b, b.settings = S → b.depth = d → (w b).Simulates (w' b) (Same S d))
    (hr : ∀ b, b.settings = S → b.depth = d → d < S.reentryLimit →
      ∀ e, Simulates (Same S (d + 1)) (r b e) (r' b e)) (m : Move) :
    Simulates (Same S d) (m.within w r) (m.within w' r') := by
  cases m with
  | damage target amount type source logged =>
    exact simulates_bind (simulates_require target) fun _ => simulates_get_bind fun b hs hd =>
      simulates_act (simulates_damage (hr b hs hd) target amount type source logged)
  | cast caster target skill =>
    exact simulates_bind (simulates_require caster) fun _ =>
      simulates_bind (simulates_require target) fun _ => simulates_get_bind fun b hs hd =>
        simulates_act (simulates_useSkill (hr b hs hd) caster target skill)
  | apply target status source duration values =>
    exact simulates_bind (simulates_require target) fun _ => simulates_get_bind fun b hs hd =>
      simulates_act (simulates_inflict (hr b hs hd) blind_eq target status source duration values)
  | update =>
    exact simulates_get_bind fun b hs hd => simulates_finish (alongside_tickAll (hr b hs hd))
  | updateOne key =>
    exact simulates_bind (simulates_require key) fun _ => simulates_get_bind fun b hs hd =>
      simulates_finish (alongside_tick (hr b hs hd) key)
  | compound key text =>
    refine simulates_bind (simulates_require key) fun _ => simulates_get_bind fun b hs hd => ?_
    cases Expr.parse b.vocabulary text with
    | error e => exact simulates_throw _
    | ok e =>
      exact simulates_act (simulates_bind (simulates_resolve (hw b hs hd) _) fun _ =>
        simulates_lift_battle _)
  | evaluate text =>
    intro b c h
    obtain rfl := h.eq_of_same
    exact simulates_evaluate (hw b h.settings h.depth) b.vocabulary text b b h
  | resolve e =>
    intro b c h
    obtain rfl := h.eq_of_same
    exact simulates_resolve (hw b h.settings h.depth) e b b h
  | tryDodge t source target =>
    intro b c h
    obtain rfl := h.eq_of_same
    exact simulates_isDodged (simulates_resolve (hw b h.settings h.depth)) t source target b b h
  | tryMitigation t raw source target =>
    intro b c h
    obtain rfl := h.eq_of_same
    exact simulates_outcome (simulates_resolve (hw b h.settings h.depth)) t raw source target b b h
  | heal target amount source logged =>
    exact simulates_operation (.heal target amount source logged)
  | cleanse key => exact simulates_operation (.cleanse key)
  | advance ms => exact simulates_operation (.advance ms)
  | setTime ms => exact simulates_operation (.setTime ms)

/-- With alarms everywhere a move answers and does the same. -/
theorem within_watched (alarm : Battle → EvalError × Battle) (beyond : Resolver) (m : Move)
    {b : Battle} {n : Nat} (hd : b.depth ≤ b.settings.reentryLimit) (hn : b.levels ≤ n) :
    m.within (fun _ => watchedWorld alarm beyond n) (fun _ => watchedResolver alarm beyond n) b =
      m.operation b := by
  rw [m.operation_eq_within]
  refine eq_of_simulates (simulates_within (fun c hs hc => ?_) (fun c hs hc hlt e => ?_) m)
  · have hlevels : c.levels = b.levels := by unfold levels; rw [hs, hc]
    rw [hlevels]
    exact simulates_watchedWorld alarm beyond blind_eq hd (Nat.le_refl _) hn
  · have hlevels : c.levels = b.levels := by unfold levels; rw [hs, hc]
    unfold below
    rw [hlevels]
    exact simulates_watchedResolver alarm beyond blind_eq (Nat.le_refl _) hn hlt e

end Moves

/-! ## Balance -/

/-- An operation ends at the depth it began at, whether it succeeds or fails. -/
theorem Command.depth_perform (b : Battle) (command : Command) :
    (command.perform b).depth = b.depth := by
  cases command with
  | move m =>
    have hm : Proceeds true b (m.perform b) := proceeds_perform m (.inr rfl)
    exact hm.depth_eq
  | insert key x =>
    show (after (Battle.insert key x) b).depth = b.depth
    rw [after_insert]
    split <;> rfl
  | add key name side =>
    show (after (Battle.insert key _) b).depth = b.depth
    rw [after_insert]
    split <;> rfl
  | addDamageType | addEffect | addSkill | remove => rfl

/-- So does a run. -/
theorem depth_run (b : Battle) (commands : List Command) :
    (run b commands).depth = b.depth := by
  induction commands generalizing b with
  | nil => rfl
  | cons command rest ih => rw [run_cons, ih, command.depth_perform]

/-- **Re-entry.** Whatever the definitions of a battle say, and in whatever circle they refer to
each other:

1. What is done one level deeper begins within the limit.
2. In a battle within its limit, a move with alarms in front of every evaluation and every action
   of a formula answers and does what the move does. No alarm goes off, whatever it would have done.
   And as nothing depends on what lies beyond the levels that are left, the recursion has ended by
   then.
3. An operation ends at the depth it began at, whether it succeeds or fails.
4. Between operations the depth of every battle that a run reaches is zero. -/
theorem reentry_bounded (alarm : Battle → EvalError × Battle) (beyond : Resolver) :
    (∀ (α : Type) (action : Action Battle α), deeper (watch alarm action) = deeper action) ∧
      (∀ (m : Move) (b : Battle) (n : Nat), b.depth ≤ b.settings.reentryLimit → b.levels ≤ n →
        m.within (fun _ => watchedWorld alarm beyond n)
          (fun _ => watchedResolver alarm beyond n) b = m.operation b) ∧
      (∀ (b : Battle) (command : Command), (command.perform b).depth = b.depth) ∧
      ∀ (settings : Settings) (vocabulary : Vocabulary) (now : Timestamp) (log : Log)
        (commands : List Command),
        (run (new settings vocabulary now log) commands).depth = 0 := by
  refine ⟨fun _ action => deeper_watch alarm action, fun m b n hd hn => ?_,
    Command.depth_perform, fun settings vocabulary now log commands => ?_⟩
  · exact within_watched alarm beyond m hd hn
  · exact depth_run (new settings vocabulary now log) commands

/-- A skill that casts itself, with alarms that would take everyone out of the battle. -/
theorem reentry_bounded_circle :
    let cast : Expr := .call ⟨"CAST", .exactly 3, .cast, [], [2]⟩
      [.leaf (.key "$CASTER"), .leaf (.key "$TARGET"), .leaf (.key "circle")]
    let b := (run (new .standard) [.add "h" "H" .player, .addSkill ⟨"circle", cast⟩])
    let alarm : Battle → EvalError × Battle := fun b =>
      (.emptyArray, { b with combatants := .empty })
    (Move.cast "h" "h" "circle").within (fun _ => watchedWorld alarm refuse 16)
        (fun _ => watchedResolver alarm refuse 16) b =
      (Move.cast "h" "h" "circle").operation b := by
  intro cast b alarm
  have hdepth : b.depth = 0 := depth_run (new .standard) _
  have hlimit : b.settings.reentryLimit = 16 := rfl
  refine (reentry_bounded alarm refuse).2.1 (.cast "h" "h" "circle") b 16 ?_ ?_
  · omega
  · show b.settings.reentryLimit - b.depth ≤ 16
    omega

end Skirmish.Battle
