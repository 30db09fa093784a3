import Skirmish.Proofs.Battle.Evolution

/-!
# Applications of statuses

What `addStatus`, `mayStack` and `inflict` come to, case by case.

1. `inflict_refresh`, `inflict_none`, `inflict_new`, `inflict_independent`: one equation for each
   way of stacking and each case of what is there.
2. `mayStack_number`, `room_of_mayStack`: a limit that is a number is looked up without a trace.
3. `addStatus_of_number`: the instance is added to what the evaluation of the interval left behind.
-/

namespace Skirmish.Battle

open Skirmish.Formula

/-! ## Limits -/

theorem limit?_independent {e : StatusEffect} {k : Nat} (hkind : e.stacking = .independent)
    (hk : e.limit? = some k) :
    ∃ x, e.maxStacks = some (.leaf (.number x)) ∧ stackLimit x ≠ 0 ∧ k = stackLimit x := by
  unfold StatusEffect.limit? at hk
  rw [hkind] at hk
  split at hk
  · next h => cases h
  · next h => cases h
  · next x _ hx =>
    by_cases h0 : stackLimit x = 0
    · rw [if_pos h0] at hk; cases hk
    · rw [if_neg h0] at hk; cases hk; exact ⟨x, hx, h0, rfl⟩
  · cases hk

theorem limit?_of_single {e : StatusEffect} (hkind : e.stacking ≠ .independent) :
    e.limit? = some 1 := by
  unfold StatusEffect.limit?
  cases h : e.stacking
  · rfl
  · rfl
  · exact absurd h hkind

theorem Combatant.statusCount_eq_zero_iff {x : Combatant} {key : String} :
    x.statusCount key = 0 ↔ x.hasStatus key = false := by
  unfold hasStatus statusCount
  rw [List.any_eq_false, List.countP_eq_zero]

/-! ## Literals -/

theorem resolve_number {σ : Type} (w : World σ) (x : Float) (s : σ) :
    (Expr.leaf (.number x)).resolve w s = .ok (.number x) s := by
  rfl

theorem bindStatus_number (source target : String) (values : List Float) (x : Float) :
    (Expr.leaf (.number x)).bindStatus source target values = .ok (.leaf (.number x)) := by
  rfl

section Applications

variable {resolver : Resolver} {b c : Battle} {e : StatusEffect} {target source status : String}
  {duration : Float} {values : List Float}

theorem deeper_eq_ok {α : Type} {act : Action Battle α} {a : α} (h : deeper act b = .ok a c) :
    b.depth < b.settings.reentryLimit ∧ ∃ d, act { b with depth := b.depth + 1 } = .ok a d ∧
      c = { d with depth := d.depth - 1 } := by
  unfold deeper at h
  by_cases hd : b.settings.reentryLimit ≤ b.depth
  · rw [if_pos hd] at h; cases h
  · rw [if_neg hd] at h
    refine ⟨by omega, ?_⟩
    cases ha : act { b with depth := b.depth + 1 } with
    | ok a' d => rw [ha] at h; cases h; exact ⟨d, rfl, rfl⟩
    | error e d => rw [ha] at h; cases h

section Deeper

variable {α : Type} {act : Action Battle α}

theorem deeper_of_full (full : b.settings.reentryLimit ≤ b.depth) :
    deeper act b = .error (.recursionLimit b.settings.reentryLimit) b :=
  if_pos full

/-- An action that leaves the deeper battle as it was leaves the battle as it was. -/
theorem deeper_of_ok (room : b.depth < b.settings.reentryLimit) {a : α}
    (h : act { b with depth := b.depth + 1 } = .ok a { b with depth := b.depth + 1 }) :
    deeper act b = .ok a b := by
  unfold deeper
  rw [if_neg (Nat.not_le.2 room), h]
  rfl

theorem deeper_of_error (room : b.depth < b.settings.reentryLimit) {err : EvalError}
    (h : act { b with depth := b.depth + 1 } = .error err { b with depth := b.depth + 1 }) :
    deeper act b = .error err b := by
  unfold deeper
  rw [if_neg (Nat.not_le.2 room), h]
  rfl

end Deeper

/-- A number is evaluated without a trace. -/
theorem deeper_number (x : Float) (deep : b.depth < b.settings.reentryLimit) :
    deeper (resolveStatus b.below (.leaf (.number x)) source target values) b =
      .ok (.number x) b := by
  have heval : resolveStatus b.below (.leaf (.number x)) source target values
      { b with depth := b.depth + 1 } = .ok (.number x) { b with depth := b.depth + 1 } := by
    unfold resolveStatus
    rw [bindStatus_number]
    exact resolve_number (world (b.levels - 1)) x _
  exact deeper_of_ok deep heval

theorem mayStack_number {x : Float} {count : Nat} (deep : b.depth < b.settings.reentryLimit)
    (hx : e.maxStacks = some (.leaf (.number x))) :
    mayStack b.below e target source values count b =
      .ok (stackLimit x = 0 || count < stackLimit x) b := by
  unfold mayStack
  rw [hx]
  exact bind_of_ok (deeper_number x deep)

/-- What becomes of an instance whose interval was evaluated to a number. -/
theorem addStatus_of_number {v : Value} {seconds : Float}
    (hv : deeper (resolveStatus resolver e.interval source target values) b = .ok v c)
    (hs : v.asNumber = .ok seconds) (ht : c.contains target = true) :
    addStatus resolver e target source duration values b = .ok () (c.afflict target
      { id := c.nextStatusId, effect := e, source, lastTick := none,
        removal := removalTime c.now duration, interval := wholeMillis (seconds * 1000),
        values }) := by
  unfold addStatus
  rw [bind_of_ok hv, hs]
  show (if c.contains target = true then _ else _ : Action Battle Unit) _ = _
  rw [if_pos ht]
  rfl

theorem addStatus_of_not_number {v : Value} {err : EvalError}
    (hv : deeper (resolveStatus resolver e.interval source target values) b = .ok v c)
    (hs : v.asNumber = .error err) :
    addStatus resolver e target source duration values b = .error err c := by
  unfold addStatus
  rw [bind_of_ok hv, hs]
  rfl

/-- On nobody an instance is put, but its id is gone. -/
theorem addStatus_of_absent {v : Value} {seconds : Float}
    (hv : deeper (resolveStatus resolver e.interval source target values) b = .ok v c)
    (hs : v.asNumber = .ok seconds) (ht : ¬c.contains target = true) :
    addStatus resolver e target source duration values b =
      .error (.unknownEntity target) { c with nextStatusId := c.nextStatusId + 1 } := by
  unfold addStatus
  rw [bind_of_ok hv, hs]
  show (if c.contains target = true then _ else _ : Action Battle Unit) _ = _
  rw [if_neg ht]
  rfl

/-- Where the limit of an independent status is fixed, `mayStack` finds out whether there is
room. -/
theorem room_of_mayStack {count k : Nat} (hb : 0 < b.levels → resolver = b.below)
    (hkind : e.stacking = .independent) (hk : e.limit? = some k)
    (h : mayStack resolver e target source values count b = .ok true c) : c = b ∧ count < k := by
  obtain ⟨x, hx, hx0, rfl⟩ := limit?_independent hkind hk
  have hdeep : b.depth < b.settings.reentryLimit := by
    unfold mayStack at h
    rw [hx] at h
    obtain ⟨v, d, hv, -⟩ := bind_eq_ok h
    exact (deeper_eq_ok hv).1
  rw [hb (by unfold levels; omega), mayStack_number hdeep hx] at h
  injection h with hroom hc
  exact ⟨hc.symm, by simpa [hx0] using hroom⟩

/-! ## Applications -/

theorem get_bind {β : Type} (f : Battle → Action Battle β) :
    ((get : Action Battle Battle) >>= f) b = f b b := by
  rfl

theorem inflict_of_unknown (h : b.effects.get? status = none) :
    inflict resolver target status source duration values b =
      .error (.unknownStatus status) b := by
  unfold inflict
  rw [get_bind]
  rw [h]
  rfl

theorem inflict_of_absent (known : b.effects.get? status = some e)
    (h : b.combatant? target = none) :
    inflict resolver target status source duration values b =
      .error (.unknownEntity target) b := by
  unfold inflict
  rw [get_bind]
  simp only [known, h]
  rfl

section Present

variable {x : Combatant} (known : b.effects.get? status = some e)
  (there : b.combatant? target = some x)

include known there

/-- A status that refreshes is put off when it is there. -/
theorem inflict_refresh (kind : e.stacking = .refresh) (has : x.hasStatus status = true) :
    inflict resolver target status source duration values b =
      .ok true (b.prolong target status duration) := by
  unfold inflict
  rw [get_bind]
  simp only [known, there, kind, has]
  rfl

/-- A status that neither stacks nor refreshes is left as it is when it is there. -/
theorem inflict_none (kind : e.stacking = .none) (has : x.hasStatus status = true) :
    inflict resolver target status source duration values b = .ok false b := by
  unfold inflict
  rw [get_bind]
  simp only [known, there, kind, has]
  rfl

/-- A status that does not stack is added when it is not there. -/
theorem inflict_new (kind : e.stacking ≠ .independent) (has : x.hasStatus status = false) :
    inflict resolver target status source duration values b =
      (addStatus resolver e target source duration values >>= fun _ => pure true) b := by
  unfold inflict
  rw [get_bind]
  simp only [known, there]
  cases h : e.stacking with
  | refresh => simp only [has]; rfl
  | none => simp only [has]; rfl
  | independent => exact absurd h kind

/-- A status that stacks is added when there is room for it. -/
theorem inflict_independent (kind : e.stacking = .independent) :
    inflict resolver target status source duration values b =
      (mayStack resolver e target source values (x.statusCount status) >>= fun room =>
        if room then addStatus resolver e target source duration values >>= fun _ => pure true
        else pure false) b := by
  unfold inflict
  rw [get_bind]
  simp only [known, there, kind]

end Present

end Applications

end Skirmish.Battle
