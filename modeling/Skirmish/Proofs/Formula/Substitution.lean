import Skirmish.Formula.Binding

/-!
# Bindings as one substitution

A binding for a use is put together of several passes, and each looks at what the passes before it
left behind.

1. `substitute_substitute`: passes one after another are one substitution.
2. `substitute_eq_iff`: two substitutions agree on an expression exactly if they agree on its keys.
3. `binding_eq_together_iff`: so the passes come to the same as all bindings at once exactly if no
   key that was put in for `$CASTER` or `$TARGET` is taken for something else by a later pass.
-/

namespace Skirmish.Formula

namespace Expr

/-! ## Substitutions -/

section Substitutions

variable {f g : Option Slot → String → Option Expr}

@[simp] theorem substitute_key (f : Option Slot → String → Option Expr) (slot : Option Slot)
    (name : String) :
    (leaf (.key name)).substitute f slot = (f slot name).getD (leaf (.key name)) := by
  rw [substitute]

/-- Two substitutions one after the other. -/
def andThen (f g : Option Slot → String → Option Expr) (slot : Option Slot) (name : String) :
    Option Expr :=
  some (((leaf (.key name)).substitute f slot).substitute g slot)

mutual

theorem substitute_substitute (f g : Option Slot → String → Option Expr) (slot : Option Slot) :
    ∀ e : Expr, (e.substitute f slot).substitute g slot = e.substitute (andThen f g) slot
  | .leaf v => by
    cases v with
    | key name => rw [substitute_key (andThen f g)]; rfl
    | _ => simp only [substitute]
  | .apply op operands => by
    simp only [substitute]
    rw [substituteOperands_substituteOperands f g operands]
  | .call h arguments => by
    simp only [substitute]
    rw [substituteArguments_substituteArguments f g h 0 arguments]

theorem substituteOperands_substituteOperands (f g : Option Slot → String → Option Expr) :
    ∀ es : List Expr, substituteOperands g (substituteOperands f es) =
      substituteOperands (andThen f g) es
  | [] => by simp only [substituteOperands]
  | e :: rest => by
    simp only [substituteOperands]
    rw [substitute_substitute f g none e, substituteOperands_substituteOperands f g rest]

theorem substituteArguments_substituteArguments (f g : Option Slot → String → Option Expr)
    (h : Function) (i : Nat) :
    ∀ es : List Expr, substituteArguments g h i (substituteArguments f h i es) =
      substituteArguments (andThen f g) h i es
  | [] => by simp only [substituteArguments]
  | e :: rest => by
    simp only [substituteArguments]
    rw [substitute_substitute f g (some ⟨h, i⟩) e,
      substituteArguments_substituteArguments f g h (i + 1) rest]

end

mutual

/-- A substitution that takes no key changes nothing. -/
theorem substitute_none (slot : Option Slot) :
    ∀ e : Expr, e.substitute (fun _ _ => none) slot = e
  | .leaf v => by
    cases v with
    | key name => rw [substitute_key]; rfl
    | _ => simp only [substitute]
  | .apply op operands => by rw [substitute, substituteOperands_none operands]
  | .call h arguments => by rw [substitute, substituteArguments_none h 0 arguments]

theorem substituteOperands_none :
    ∀ es : List Expr, substituteOperands (fun _ _ => none) es = es
  | [] => by rw [substituteOperands]
  | e :: rest => by
    rw [substituteOperands, substitute_none none e, substituteOperands_none rest]

theorem substituteArguments_none (h : Function) (i : Nat) :
    ∀ es : List Expr, substituteArguments (fun _ _ => none) h i es = es
  | [] => by rw [substituteArguments]
  | e :: rest => by
    rw [substituteArguments, substitute_none (some ⟨h, i⟩) e,
      substituteArguments_none h (i + 1) rest]

end

/-- The substitutions put the same in place of the keys among these visits. -/
def Agree (f g : Option Slot → String → Option Expr) (visits : List (Expr × Option Slot)) : Prop :=
  ∀ name slot, (leaf (.key name), slot) ∈ visits →
    (leaf (.key name)).substitute f slot = (leaf (.key name)).substitute g slot

theorem agree_append {l m : List (Expr × Option Slot)} :
    Agree f g (l ++ m) ↔ Agree f g l ∧ Agree f g m := by
  unfold Agree
  simp only [List.mem_append]
  constructor
  · exact fun h => ⟨fun name slot hm => h name slot (.inl hm), fun name slot hm =>
      h name slot (.inr hm)⟩
  · rintro ⟨hl, hm⟩ name slot (h | h)
    · exact hl name slot h
    · exact hm name slot h

theorem agree_singleton {e : Expr} {slot : Option Slot} (h : ∀ name, e ≠ leaf (.key name)) :
    Agree f g [(e, slot)] := by
  intro name s hs
  cases List.mem_singleton.1 hs
  exact absurd rfl (h name)

mutual

theorem substitute_eq_iff (f g : Option Slot → String → Option Expr) (slot : Option Slot) :
    ∀ e : Expr, e.substitute f slot = e.substitute g slot ↔ Agree f g (e.visits slot)
  | .leaf v => by
    rw [visits]
    cases v with
    | key name =>
      constructor
      · intro h name' s hs
        cases List.mem_singleton.1 hs
        exact h
      · exact fun h => h name slot (List.mem_singleton.2 rfl)
    | _ =>
      simp only [substitute]
      exact iff_of_true trivial (agree_singleton nofun)
  | .apply op operands => by
    simp only [substitute, visits]
    rw [agree_append, Expr.apply.injEq, substituteOperands_eq_iff f g operands]
    exact ⟨fun h => ⟨h.2, agree_singleton nofun⟩, fun h => ⟨rfl, h.1⟩⟩
  | .call h arguments => by
    simp only [substitute, visits]
    rw [agree_append, Expr.call.injEq, substituteArguments_eq_iff f g h 0 arguments]
    exact ⟨fun h => ⟨h.2, agree_singleton nofun⟩, fun h => ⟨rfl, h.1⟩⟩

theorem substituteOperands_eq_iff (f g : Option Slot → String → Option Expr) :
    ∀ es : List Expr, substituteOperands f es = substituteOperands g es ↔
      Agree f g (visitsOfOperands es)
  | [] => by
    simp only [substituteOperands, visitsOfOperands]
    exact iff_of_true trivial nofun
  | e :: rest => by
    simp only [substituteOperands, visitsOfOperands]
    rw [agree_append, List.cons.injEq, substitute_eq_iff f g none e,
      substituteOperands_eq_iff f g rest]

theorem substituteArguments_eq_iff (f g : Option Slot → String → Option Expr) (h : Function)
    (i : Nat) :
    ∀ es : List Expr, substituteArguments f h i es = substituteArguments g h i es ↔
      Agree f g (visitsOfArguments h i es)
  | [] => by
    simp only [substituteArguments, visitsOfArguments]
    exact iff_of_true trivial nofun
  | e :: rest => by
    simp only [substituteArguments, visitsOfArguments]
    rw [agree_append, List.cons.injEq, substitute_eq_iff f g (some ⟨h, i⟩) e,
      substituteArguments_eq_iff f g h (i + 1) rest]

end

end Substitutions

/-! ## Bindings -/

/-- Puts entities in place of `$CASTER` and `$TARGET`. -/
def roleBinding (source target : String) (_ : Option Slot) (name : String) : Option Expr :=
  if name = casterPlaceholder then some (leaf (.key source))
  else if name = targetPlaceholder then some (leaf (.key target))
  else none

/-- Puts an amount in place of `$VALUE`. -/
def amountBinding (amount : Float) (_ : Option Slot) (name : String) : Option Expr :=
  if name = amountPlaceholder then some (leaf (.number amount)) else none

/-- Puts arguments in place of `$0`, `$1`, …. -/
def argumentBinding (values : List Float) (_ : Option Slot) (name : String) : Option Expr := do
  let i ← placeholderIndex? name
  return leaf (.number (← values[i]?))

/-- Puts readings in place of the bare stats of an entity. -/
def statBinding (hasStat : String → Bool) (entity : String) (slot : Option Slot) (name : String) :
    Option Expr :=
  if slot.any Slot.isKey || !hasStat name then none
  else some (call ⟨"GET_PROP", .exactly 2, .stat, [], [1]⟩ [leaf (.key entity), leaf (.key name)])

/-- Two bindings at once, each on the keys that the expression has. The first one goes first where
both bind a key. -/
def together (f g : Option Slot → String → Option Expr) (slot : Option Slot) (name : String) :
    Option Expr :=
  (f slot name).orElse fun _ => g slot name

/-- In one of the places of `$CASTER` and `$TARGET` the key that is put in would be taken for
something else. -/
def Captured (taken : Option Slot → String → Prop) (source target : String) (e : Expr) : Prop :=
  ∃ slot, ((leaf (.key casterPlaceholder), slot) ∈ e.visits none ∧ taken slot source) ∨
    ((leaf (.key targetPlaceholder), slot) ∈ e.visits none ∧ taken slot target)

/-- Whether a key reads as a bare stat in that slot. -/
def IsBareStat (hasStat : String → Bool) (slot : Option Slot) (name : String) : Prop :=
  slot.any Slot.isKey = false ∧ hasStat name = true

/-- Whether a key reads as a numbered placeholder with a value. -/
def IsArgument (values : List Float) (name : String) : Prop :=
  ∃ i, placeholderIndex? name = some i ∧ i < values.length

section Bindings

variable {source target entity : String} {later : Option Slot → String → Option Expr}

theorem Captured.congr {taken taken' : Option Slot → String → Prop} {e : Expr}
    (h : ∀ slot name, taken slot name ↔ taken' slot name) :
    e.Captured taken source target ↔ e.Captured taken' source target := by
  unfold Captured
  simp only [h]

/-- A key that is not bound stays, and no binding puts a key in its own place. -/
theorem substitute_key_eq_iff {slot : Option Slot} {name : String}
    (proper : later slot name ≠ some (leaf (.key name))) :
    (leaf (.key name)).substitute later slot = leaf (.key name) ↔ later slot name = none := by
  rw [substitute_key]
  cases h : later slot name with
  | none => exact iff_of_true rfl rfl
  | some e =>
    refine iff_of_false ?_ nofun
    rintro rfl
    exact proper h

/-- Where a key is put in by the first of two bindings, the second must leave it alone. -/
theorem agree_of_some {first : Option Slot → String → Option Expr} {slot : Option Slot}
    {name : String} (proper : later slot entity ≠ some (leaf (.key entity)))
    (h : first slot name = some (leaf (.key entity))) :
    (leaf (.key name)).substitute (andThen first later) slot =
        (leaf (.key name)).substitute (together first later) slot ↔ later slot entity = none := by
  have hthen : (leaf (.key name)).substitute (andThen first later) slot =
      (leaf (.key entity)).substitute later slot := by
    rw [substitute_key, andThen, Option.getD_some, substitute_key first, h, Option.getD_some]
  have htogether : (leaf (.key name)).substitute (together first later) slot =
      leaf (.key entity) := by
    rw [substitute_key, together, h]
    rfl
  rw [hthen, htogether]
  exact substitute_key_eq_iff proper

/-- Where the first of two bindings does nothing, the second does the same with or after it. -/
theorem agree_of_none {first : Option Slot → String → Option Expr} {slot : Option Slot}
    {name : String} (h : first slot name = none) :
    (leaf (.key name)).substitute (andThen first later) slot =
      (leaf (.key name)).substitute (together first later) slot := by
  have hthen : (leaf (.key name)).substitute (andThen first later) slot =
      (leaf (.key name)).substitute later slot := by
    rw [substitute_key, andThen, Option.getD_some, substitute_key first, h, Option.getD_none]
  rw [hthen, substitute_key, substitute_key, together, h]
  rfl

/-- **Hygiene.** Binding the roles first and the rest later comes to the same as binding all at
once exactly if nothing that is put in for a role is bound later. -/
theorem binding_eq_together_iff (proper : ∀ slot name, later slot name ≠ some (leaf (.key name)))
    (e : Expr) :
    (e.bindRoles source target).substitute later none =
        e.substitute (together (roleBinding source target) later) none ↔
      ¬e.Captured (fun slot name => later slot name ≠ none) source target := by
  have hcaster (slot : Option Slot) : roleBinding source target slot casterPlaceholder =
      some (leaf (.key source)) := if_pos rfl
  have htarget (slot : Option Slot) : roleBinding source target slot targetPlaceholder =
      some (leaf (.key target)) := (if_neg (by decide)).trans (if_pos rfl)
  show (e.substitute (roleBinding source target) none).substitute later none = _ ↔ _
  rw [substitute_substitute, substitute_eq_iff]
  constructor
  · rintro h ⟨slot, ⟨hm, htaken⟩ | ⟨hm, htaken⟩⟩
    · exact htaken ((agree_of_some (proper slot source) (hcaster slot)).1 (h _ slot hm))
    · exact htaken ((agree_of_some (proper slot target) (htarget slot)).1 (h _ slot hm))
  · intro h name slot hm
    by_cases hc : name = casterPlaceholder
    · subst hc
      refine (agree_of_some (proper slot source) (hcaster slot)).2 ?_
      exact Classical.not_not.1 fun htaken => h ⟨slot, .inl ⟨hm, htaken⟩⟩
    · by_cases ht : name = targetPlaceholder
      · subst ht
        refine (agree_of_some (proper slot target) (htarget slot)).2 ?_
        exact Classical.not_not.1 fun htaken => h ⟨slot, .inr ⟨hm, htaken⟩⟩
      · exact agree_of_none ((if_neg hc).trans (if_neg ht))

/-! ## Later passes -/

theorem statBinding_ne_none {hasStat : String → Bool} {slot : Option Slot} {name : String} :
    statBinding hasStat entity slot name ≠ none ↔ IsBareStat hasStat slot name := by
  unfold statBinding IsBareStat
  cases slot.any Slot.isKey <;> cases hasStat name <;> simp

theorem statBinding_proper (hasStat : String → Bool) (slot : Option Slot) (name : String) :
    statBinding hasStat entity slot name ≠ some (leaf (.key name)) := by
  unfold statBinding
  split <;> exact nofun

theorem argumentBinding_ne_none {values : List Float} {slot : Option Slot} {name : String} :
    argumentBinding values slot name ≠ none ↔ IsArgument values name := by
  unfold argumentBinding IsArgument
  cases placeholderIndex? name with
  | none => simp
  | some i =>
    cases h : values[i]? with
    | none =>
      have hle := List.getElem?_eq_none_iff.1 h
      simp [hle]
    | some x =>
      obtain ⟨hlt, -⟩ := List.getElem?_eq_some_iff.1 h
      simp [hlt]

theorem argumentBinding_proper (values : List Float) (slot : Option Slot) (name : String) :
    argumentBinding values slot name ≠ some (leaf (.key name)) := by
  unfold argumentBinding
  cases placeholderIndex? name with
  | none => exact nofun
  | some i =>
    cases h : values[i]? with
    | none => simp [h]
    | some x => simp [h]

theorem amountBinding_ne_none {amount : Float} {slot : Option Slot} {name : String} :
    amountBinding amount slot name ≠ none ↔ name = amountPlaceholder := by
  unfold amountBinding
  split <;> simp [*]

theorem amountBinding_proper (amount : Float) (slot : Option Slot) (name : String) :
    amountBinding amount slot name ≠ some (leaf (.key name)) := by
  unfold amountBinding
  split <;> exact nofun

theorem together_ne_none {f g : Option Slot → String → Option Expr} {slot : Option Slot}
    {name : String} :
    together f g slot name ≠ none ↔ f slot name ≠ none ∨ g slot name ≠ none := by
  unfold together
  cases f slot name <;> simp

theorem together_proper {f g : Option Slot → String → Option Expr}
    (hf : ∀ slot name, f slot name ≠ some (leaf (.key name)))
    (hg : ∀ slot name, g slot name ≠ some (leaf (.key name))) (slot : Option Slot)
    (name : String) : together f g slot name ≠ some (leaf (.key name)) := by
  have hf := hf slot name
  unfold together
  cases h : f slot name with
  | none => exact hg slot name
  | some e => rwa [h] at hf

theorem bindStats_eq (e : Expr) (hasStat : String → Bool) :
    e.bindStats .standard hasStat entity = e.substitute (statBinding hasStat entity) none := by
  rfl

/-- An amount that was put in is not bound again. -/
theorem bindAmount_bindStats (e : Expr) (amount : Float) (hasStat : String → Bool) :
    (e.bindAmount amount).bindStats .standard hasStat entity =
      e.substitute (together (amountBinding amount) (statBinding hasStat entity)) none := by
  show (e.substitute (amountBinding amount) none).substitute (statBinding hasStat entity) none = _
  rw [substitute_substitute, substitute_eq_iff]
  intro name slot _
  by_cases h : name = amountPlaceholder
  · have hamount : amountBinding amount slot name = some (leaf (.number amount)) := if_pos h
    rw [substitute_key, substitute_key, andThen, together, substitute_key, hamount]
    rfl
  · exact agree_of_none (if_neg h)

theorem bindArguments_eq_ok {values : List Float} {e r : Expr}
    (h : e.bindArguments values = .ok r) : r = e.substitute (argumentBinding values) none := by
  unfold bindArguments at h
  split at h
  · cases h
  · injection h with h
    exact h.symm

end Bindings

/-- **Bindings at once.** Each of the four bindings is the one simultaneous substitution that it is
made up of exactly if no entity is put in for `$CASTER` or `$TARGET` where its key reads as a
placeholder or a stat that a later pass binds. -/
theorem bindings_at_once (e : Expr) (hasStat : String → String → Bool)
    (source target entity : String) (amount : Float) (values : List Float) :
    (e.bindSkill .standard hasStat source target =
        e.substitute (together (roleBinding source target)
          (statBinding (hasStat source) source)) none ↔
      ¬e.Captured (IsBareStat (hasStat source)) source target) ∧
    (e.bindMitigation .standard hasStat target source amount =
        e.substitute (together (roleBinding source target)
          (together (amountBinding amount) (statBinding (hasStat target) target))) none ↔
      ¬e.Captured (fun slot name => name = amountPlaceholder ∨
        IsBareStat (hasStat target) slot name) source target) ∧
    (∀ r, e.bindStatus source target values = .ok r →
      (r = e.substitute (together (roleBinding source target) (argumentBinding values)) none ↔
        ¬e.Captured (fun _ => IsArgument values) source target)) ∧
    (e.bindCompound .standard hasStat entity =
        e.substitute (together (roleBinding entity entity)
          (statBinding (hasStat entity) entity)) none ↔
      ¬e.Captured (IsBareStat (hasStat entity)) entity entity) := by
  refine ⟨?_, ?_, fun r hr => ?_, ?_⟩
  · rw [bindSkill, bindStats_eq, binding_eq_together_iff (statBinding_proper _)]
    exact not_congr (Captured.congr fun _ _ => statBinding_ne_none)
  · rw [bindMitigation, bindAmount_bindStats,
      binding_eq_together_iff (together_proper (amountBinding_proper _) (statBinding_proper _))]
    refine not_congr (Captured.congr fun _ _ => ?_)
    rw [together_ne_none, amountBinding_ne_none, statBinding_ne_none]
  · rw [bindArguments_eq_ok hr, binding_eq_together_iff (argumentBinding_proper _)]
    exact not_congr (Captured.congr fun _ _ => argumentBinding_ne_none)
  · rw [bindCompound, bindStats_eq, binding_eq_together_iff (statBinding_proper _)]
    exact not_congr (Captured.congr fun _ _ => statBinding_ne_none)

/-- An argument of a status. -/
theorem bindings_at_once_argument :
    (leaf (.key "$0")).bindStatus "a" "b" [7] = .ok (leaf (.number 7)) ∧
      leaf (.number 7) = (leaf (.key "$0")).substitute
        (together (roleBinding "a" "b") (argumentBinding [7])) none := by
  have hbind : (leaf (.key "$0")).bindStatus "a" "b" [7] = .ok (leaf (.number 7)) := rfl
  refine ⟨hbind, ((bindings_at_once (leaf (.key "$0")) (fun _ _ => false) "a" "b" "a" 0 [7]).2.2.1
    _ hbind).2 ?_⟩
  rintro ⟨slot, ⟨hm, -⟩ | ⟨hm, -⟩⟩ <;>
    simp [visits, casterPlaceholder, targetPlaceholder] at hm

/-- A caster called like one of its own stats is taken for the stat. -/
theorem bindSkill_captures :
    (leaf (.key "$CASTER")).bindSkill .standard (fun _ stat => stat = "STR") "STR" "x" ≠
      (leaf (.key "$CASTER")).substitute (together (roleBinding "STR" "x")
        (statBinding (fun stat => stat = "STR") "STR")) none := by
  intro h
  cases h

end Expr

end Skirmish.Formula
