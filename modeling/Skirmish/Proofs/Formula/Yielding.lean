import Skirmish.Proofs.Formula.Keeping

/-!
# What actions yield

`Yields I E V act`: from states that satisfy `I`, the action gives a value that satisfies `V` or
fails with a fault that satisfies `E`, and it ends in a state that satisfies `I` again.

1. `Yields` is closed under the ways in which actions are put together.
2. `yields_run`: a function that has the values that its rule reads gives no operator or function,
   and fails by the number of its arguments only where the world does.
-/

namespace Skirmish.Formula

/-! ## Actions -/

section Actions

variable {ε σ α β : Type} {I : σ → Prop} {E : ε → Prop} {V : α → Prop} {W : β → Prop}

/-- The computation gives a value that satisfies `V` or fails with a fault that satisfies `E`. -/
def Answers (E : ε → Prop) (V : α → Prop) : Except ε α → Prop
  | .ok a => V a
  | .error e => E e

/-- A result of that kind, in a state that satisfies `I`. -/
def Ends (I : σ → Prop) (E : ε → Prop) (V : α → Prop) : EStateM.Result ε σ α → Prop
  | .ok a s => V a ∧ I s
  | .error e s => E e ∧ I s

/-- From states that satisfy `I` the action ends with such a result. -/
def Yields (I : σ → Prop) (E : ε → Prop) (V : α → Prop) (act : EStateM ε σ α) : Prop :=
  ∀ s, I s → Ends I E V (act s)

theorem Yields.of_ok {act : EStateM ε σ α} (h : Yields I E V act) {s t : σ} (hs : I s) {a : α}
    (hr : act s = .ok a t) : V a ∧ I t := by
  have hend := h s hs
  rwa [hr] at hend

theorem Yields.of_error {act : EStateM ε σ α} (h : Yields I E V act) {s t : σ} (hs : I s) {e : ε}
    (hr : act s = .error e t) : E e ∧ I t := by
  have hend := h s hs
  rwa [hr] at hend

theorem answers_bind {x : Except ε α} {k : α → Except ε β} (hx : Answers E V x)
    (hk : ∀ a, V a → Answers E W (k a)) : Answers E W (x >>= k) := by
  cases x with
  | ok a => exact hk a hx
  | error e => exact hx

theorem Answers.mono {x : Except ε α} {U : α → Prop} (h : Answers E V x) (hV : ∀ a, V a → U a) :
    Answers E U x := by
  cases x with
  | ok a => exact hV a h
  | error e => exact h

theorem answers_mapM {f : α → Except ε β} {l : List α} (h : ∀ a ∈ l, Answers E W (f a)) :
    Answers E (fun bs => ∀ b ∈ bs, W b) (l.mapM f) := by
  induction l with
  | nil => exact nofun
  | cons a rest ih =>
    obtain ⟨ha, hrest⟩ := List.forall_mem_cons.1 h
    rw [List.mapM_cons]
    refine answers_bind ha fun b hb => answers_bind (ih hrest) fun bs hbs => ?_
    exact List.forall_mem_cons.2 ⟨hb, hbs⟩

theorem yields_pure {a : α} (h : V a) : Yields I E V (pure a : EStateM ε σ α) :=
  fun _ hs => ⟨h, hs⟩

theorem yields_throw {e : ε} (h : E e) : Yields I E V (throw e : EStateM ε σ α) :=
  fun _ hs => ⟨h, hs⟩

theorem yields_bind {act : EStateM ε σ α} {k : α → EStateM ε σ β} (h : Yields I E V act)
    (hk : ∀ a, V a → Yields I E W (k a)) : Yields I E W (act >>= k) := by
  intro s hs
  cases hr : act s with
  | ok a t =>
    obtain ⟨ha, ht⟩ := h.of_ok hs hr
    rw [bind_of_ok hr]
    exact hk a ha t ht
  | error e t =>
    rw [bind_of_error hr]
    exact h.of_error hs hr

theorem yields_map {act : EStateM ε σ α} {f : α → β} (h : Yields I E V act)
    (hf : ∀ a, V a → W (f a)) : Yields I E W (f <$> act) := by
  rw [← bind_pure_comp]
  exact yields_bind h fun a ha => yields_pure (hf a ha)

theorem yields_get_bind {k : σ → EStateM ε σ β} (h : ∀ s, I s → Yields I E W (k s)) :
    Yields I E W (get >>= k) :=
  fun s hs => h s hs s hs

theorem yields_set {s : σ} (h : I s) : Yields I E (fun _ => True) (set s : EStateM ε σ Unit) :=
  fun _ _ => ⟨trivial, h⟩

theorem yields_modify {f : σ → σ} (h : ∀ s, I s → I (f s)) :
    Yields I E (fun _ => True) (modify f : EStateM ε σ Unit) :=
  fun s hs => ⟨trivial, h s hs⟩

theorem yields_discard {act : EStateM ε σ α} (h : Yields I E V act) :
    Yields I E (fun _ => True) (discard act) :=
  yields_bind h fun _ _ => yields_pure trivial

theorem Yields.mono {act : EStateM ε σ α} {U : α → Prop} (h : Yields I E V act)
    (hV : ∀ a, V a → U a) : Yields I E U act := by
  intro s hs
  cases hr : act s with
  | ok a t => exact (h.of_ok hs hr).imp_left (hV a)
  | error e t => exact h.of_error hs hr

end Actions

/-! ## Evaluations -/

section Evaluations

variable {σ α : Type} {I : σ → Prop} {E : EvalError → Prop} {V : α → Prop}

/-- The world's state in an evaluation satisfies `I`. -/
def Evaluation.On (I : σ → Prop) (s : Evaluation σ) : Prop := I s.state

open Evaluation (On)

theorem yields_lift {x : Except EvalError α} (h : Answers E V x) :
    Yields (On I) E V (Evaluation.lift x) := by
  cases x with
  | ok a => exact yields_pure h
  | error e => exact yields_throw h

theorem yields_ask {question : σ → α} (h : ∀ s, I s → V (question s)) :
    Yields (On I) E V (Evaluation.ask question) :=
  fun s hs => ⟨h s.state hs, hs⟩

theorem yields_perform {act : Action σ α} (h : Yields I E V act) :
    Yields (On I) E V (Evaluation.perform act) := by
  intro s hs
  unfold Evaluation.perform
  cases hr : act s.state with
  | ok a t => exact h.of_ok hs hr
  | error e t => exact h.of_error hs hr

/-- One level deeper the same holds, and at the limit there is a fault. -/
theorem yields_nested {act : Action (Evaluation σ) α}
    (hlimit : E (.recursionLimit Evaluation.limit)) (h : Yields (On I) E V act) :
    Yields (On I) E V (Evaluation.nested act) := by
  intro s hs
  unfold Evaluation.nested
  split
  · exact ⟨hlimit, hs⟩
  · have hs' : On I { s with depth := s.depth + 1 } := hs
    cases hr : act { s with depth := s.depth + 1 } with
    | ok a t => exact ⟨(h.of_ok hs' hr).1, (h.of_ok hs' hr).2⟩
    | error e t => exact ⟨(h.of_error hs' hr).1, (h.of_error hs' hr).2⟩

/-- What the world answers and does satisfies `E` and `I`. -/
structure World.Yields (I : σ → Prop) (E : EvalError → Prop) (w : World σ) : Prop where
  stat : ∀ s, I s → ∀ entity stat, Answers E (fun _ => True) (w.stat s entity stat)
  harm : ∀ target source type amount,
    Formula.Yields I E (fun _ => True) (w.harm target source type amount)
  heal : ∀ target source amount, Formula.Yields I E (fun _ => True) (w.heal target source amount)
  cast : ∀ caster target skill, Formula.Yields I E (fun _ => True) (w.cast caster target skill)
  inflict : ∀ target source status duration values,
    Formula.Yields I E (fun _ => True) (w.inflict target source status duration values)
  roll : ∀ upper s, I s → I (w.roll upper s).2

theorem yields_roll {w : World σ} (hw : w.Yields I E) (upper : UInt32) :
    Yields (On I) E (fun _ => True) (Evaluation.roll w upper) :=
  fun s hs => ⟨trivial, hw.roll upper s.state hs⟩

end Evaluations

/-! ## Values -/

mutual

/-- Whether a value is no operator and no function, and holds none at any depth. -/
def Value.isInert : Value → Bool
  | .array items => Value.areInert items
  | .operator _ | .function _ => false
  | _ => true

/-- Whether all of them are inert. -/
def Value.areInert : List Value → Bool
  | [] => true
  | v :: rest => v.isInert && Value.areInert rest

end

/-- The value is inert. -/
abbrev Value.Inert (v : Value) : Prop := v.isInert = true

theorem Value.areInert_iff {items : List Value} :
    Value.areInert items = true ↔ ∀ v ∈ items, v.Inert := by
  induction items with
  | nil => simp [Value.areInert]
  | cons v rest ih => simp [Value.areInert, ih]

theorem inert_entities (names : List String) : (Value.array (names.map .entity)).Inert := by
  refine Value.areInert_iff.2 fun v hv => ?_
  obtain ⟨name, -, rfl⟩ := List.mem_map.1 hv
  rfl

/-- A fault other than a wrong number of operands or arguments. -/
def EvalError.Fitting : EvalError → Prop
  | .arity _ _ => False
  | _ => True

section Access

variable (v : Value)

theorem answers_asNumber : Answers EvalError.Fitting (fun _ => True) v.asNumber := by
  cases v <;> trivial

theorem answers_asBoolean : Answers EvalError.Fitting (fun _ => True) v.asBoolean := by
  cases v <;> trivial

theorem answers_asKey : Answers EvalError.Fitting (fun _ => True) v.asKey := by
  cases v <;> trivial

theorem answers_asEntity : Answers EvalError.Fitting (fun _ => True) v.asEntity := by
  cases v <;> trivial

theorem answers_asModifier : Answers EvalError.Fitting (fun _ => True) v.asModifier := by
  cases v <;> trivial

/-- What an array holds is as inert as the array. -/
theorem answers_asArray {v : Value} (h : v.Inert) :
    Answers EvalError.Fitting (fun items => ∀ x ∈ items, x.Inert) v.asArray := by
  cases v with
  | array items => exact Value.areInert_iff.1 h
  | _ => trivial

theorem answers_numbers (items : List Value) :
    Answers EvalError.Fitting (fun _ => True) (Value.numbers items) := by
  have hnumbers : Answers EvalError.Fitting (fun xs => ∀ x ∈ xs, True) (Value.numbers items) :=
    answers_mapM fun v _ => answers_asNumber v
  exact hnumbers.mono fun _ _ => trivial

end Access

section Continuing

open Evaluation (On)

variable {σ α : Type} {I : σ → Prop} {V : α → Prop} {x : Except EvalError Value}
  (hx : Answers EvalError.Fitting Value.Inert x)

include hx

theorem yields_number {k : Float → Action (Evaluation σ) α}
    (hk : ∀ a, Yields (On I) EvalError.Fitting V (k a)) :
    Yields (On I) EvalError.Fitting V (Evaluation.lift (do (← x).asNumber) >>= k) :=
  yields_bind (yields_lift (answers_bind hx fun v _ => answers_asNumber v)) fun a _ => hk a

theorem yields_boolean {k : Bool → Action (Evaluation σ) α}
    (hk : ∀ a, Yields (On I) EvalError.Fitting V (k a)) :
    Yields (On I) EvalError.Fitting V (Evaluation.lift (do (← x).asBoolean) >>= k) :=
  yields_bind (yields_lift (answers_bind hx fun v _ => answers_asBoolean v)) fun a _ => hk a

theorem yields_key {k : String → Action (Evaluation σ) α}
    (hk : ∀ a, Yields (On I) EvalError.Fitting V (k a)) :
    Yields (On I) EvalError.Fitting V (Evaluation.lift (do (← x).asKey) >>= k) :=
  yields_bind (yields_lift (answers_bind hx fun v _ => answers_asKey v)) fun a _ => hk a

theorem yields_entity {k : String → Action (Evaluation σ) α}
    (hk : ∀ a, Yields (On I) EvalError.Fitting V (k a)) :
    Yields (On I) EvalError.Fitting V (Evaluation.lift (do (← x).asEntity) >>= k) :=
  yields_bind (yields_lift (answers_bind hx fun v _ => answers_asEntity v)) fun a _ => hk a

end Continuing

/-! ## Functions -/

/-- The positions of the values that a rule reads when there are `count` arguments. -/
def FunctionRule.reads (count : Nat) : FunctionRule → List Nat
  | largest | smallest | array | total => List.range count
  | magnitude | nonNegative | choose | pick | chance => [0]
  | random | stat | modifier | larger | swap => [0, 1]
  | heal | cast => [0, 1, 2]
  | harm => [0, 1, 2, 3]
  | inflict => [0, 1, 2, 3, 4]
  | players | activePlayers | firstSuccess => []

section Functions

open Evaluation (On)

variable {σ : Type} {I : σ → Prop} {w : World σ} {f : Function} {args : List (Arg σ)}

/-- The values that the rule reads are there and inert, and so is what the other arguments yield. -/
structure Function.Served (I : σ → Prop) (f : Function) (args : List (Arg σ)) : Prop where
  reads : ∀ i ∈ f.rule.reads args.length, ∃ v : Value, args[i]?.bind Arg.value? = some v ∧ v.Inert
  force : ∀ a ∈ args, Yields (On I) EvalError.Fitting Value.Inert a.force
  nonempty : f.rule = .firstSuccess → args ≠ []

variable (h : f.Served I args)

include h

theorem answers_eager {i : Nat} (hi : i ∈ f.rule.reads args.length) :
    Answers EvalError.Fitting Value.Inert (f.eager args i) := by
  obtain ⟨v, hv, hinert⟩ := h.reads i hi
  unfold Function.eager
  rw [hv]
  exact hinert

theorem answers_eagerValues (hall : f.rule.reads args.length = List.range args.length) :
    Answers EvalError.Fitting (fun vs => ∀ v ∈ vs, v.Inert) (f.eagerValues args) :=
  answers_mapM fun _ hi => answers_eager h (hall ▸ hi)

theorem answers_eagerNumbers (hall : f.rule.reads args.length = List.range args.length) :
    Answers EvalError.Fitting (fun _ => True) (f.eagerNumbers args) := by
  have hnumbers : Answers EvalError.Fitting (fun xs => ∀ x ∈ xs, True) (f.eagerNumbers args) :=
    answers_mapM fun _ hi => answers_bind (answers_eager h (hall ▸ hi)) fun v _ =>
      answers_asNumber v
  exact hnumbers.mono fun _ _ => trivial

theorem yields_force_getD (i : Nat) :
    Yields (On I) EvalError.Fitting Value.Inert (args.getD i (.value .null)).force := by
  rw [List.getD_eq_getElem?_getD]
  cases ha : args[i]? with
  | none => exact yields_pure rfl
  | some a => exact h.force a (List.mem_of_getElem? ha)

omit h in
theorem yields_firstSuccess {last : EvalError} (hlast : last.Fitting ∨ args ≠ [])
    (hforce : ∀ a ∈ args, Yields (On I) EvalError.Fitting Value.Inert a.force) :
    Yields (On I) EvalError.Fitting Value.Inert (Function.firstSuccess last args) := by
  induction args generalizing last with
  | nil => exact yields_throw (hlast.resolve_right fun hne => hne rfl)
  | cons a rest ih =>
    obtain ⟨ha, hrest⟩ := List.forall_mem_cons.1 hforce
    intro s hs
    rw [Function.firstSuccess.eq_2]
    cases hr : a.force s with
    | ok v t =>
      simp only [hr]
      exact ha.of_ok hs hr
    | error e t =>
      obtain ⟨he, ht⟩ := ha.of_error hs hr
      simpa only [hr] using ih (.inl he) hrest t ht

/-- **Functions.** Called with what its rule reads, a function gives an inert value, and what it
complains of is not the number of its arguments. -/
theorem yields_run (hw : w.Yields I EvalError.Fitting) :
    Yields (On I) EvalError.Fitting Value.Inert (f.run w args) := by
  unfold Function.run
  cases hrule : f.rule <;> dsimp only
  case largest | smallest | total =>
    exact yields_bind (yields_lift (answers_eagerNumbers h (by rw [hrule]; rfl)))
      fun _ _ => yields_pure rfl
  case array =>
    exact yields_bind (yields_lift (answers_eagerValues h (by rw [hrule]; rfl)))
      fun _ hvs => yields_pure (Value.areInert_iff.2 hvs)
  case firstSuccess => exact yields_firstSuccess (.inr (h.nonempty hrule)) h.force
  case players =>
    exact yields_bind (yields_ask (V := fun _ => True) fun _ _ => trivial)
      fun names _ => yields_pure (inert_entities names)
  case activePlayers =>
    exact yields_bind (yields_ask (V := fun _ => True) fun _ _ => trivial)
      fun names _ => yields_pure (inert_entities names)
  -- The other rules read arguments one by one.
  all_goals
    have hread (i : Nat) := answers_eager h (i := i)
    simp only [hrule, FunctionRule.reads, List.mem_cons, List.not_mem_nil, or_false,
      forall_eq_or_imp, forall_eq] at hread
  case magnitude => exact yields_number hread fun _ => yields_pure rfl
  case nonNegative => exact yields_number hread fun _ => yields_pure rfl
  case random =>
    obtain ⟨hlow, hhigh⟩ := hread
    refine yields_number hlow fun low => yields_number hhigh fun high => ?_
    split
    · exact yields_bind (yields_roll hw _) fun _ _ => yields_pure rfl
    · exact yields_pure rfl
  case harm =>
    obtain ⟨htarget, hsource, htype, hamount⟩ := hread
    refine yields_key htarget fun target => yields_key hsource fun source =>
      yields_key htype fun type => yields_number hamount fun amount => ?_
    exact yields_bind (yields_perform (hw.harm target source type amount)) fun _ _ => yields_pure rfl
  case heal =>
    obtain ⟨htarget, hsource, hamount⟩ := hread
    refine yields_key htarget fun target => yields_key hsource fun source =>
      yields_number hamount fun amount => ?_
    exact yields_bind (yields_perform (hw.heal target source amount)) fun _ _ => yields_pure rfl
  case stat =>
    obtain ⟨hentity, hstat⟩ := hread
    refine yields_entity hentity fun entity => yields_key hstat fun stat => ?_
    have hask : Yields (On I) EvalError.Fitting
        (Answers EvalError.Fitting fun _ => True) (Evaluation.ask (w.stat · entity stat)) :=
      yields_ask fun s hs => hw.stat s hs entity stat
    exact yields_bind hask fun _ hx => yields_bind (yields_lift hx) fun _ _ => yields_pure rfl
  case choose =>
    refine yields_boolean hread fun b => ?_
    split
    · exact yields_force_getD h 1
    · exact yields_force_getD h 2
  case pick =>
    refine yields_bind (yields_lift (answers_bind hread fun _ hv => answers_asArray hv))
      fun items hitems => ?_
    split
    · exact yields_throw trivial
    · refine yields_bind (yields_roll hw _) fun n _ => yields_pure ?_
      rw [List.getD_eq_getElem?_getD]
      cases hn : items[n.toNat]? with
      | none => rfl
      | some v => exact hitems v (List.mem_of_getElem? hn)
  case chance =>
    exact yields_number hread fun _ => yields_bind (yields_roll hw _) fun _ _ => yields_pure rfl
  case cast =>
    obtain ⟨hcaster, htarget, hskill⟩ := hread
    refine yields_entity hcaster fun caster => yields_entity htarget fun target =>
      yields_key hskill fun skill => ?_
    exact yields_bind (yields_perform (hw.cast caster target skill)) fun _ _ => yields_pure rfl
  case modifier =>
    obtain ⟨hstat, hamount⟩ := hread
    exact yields_key hstat fun _ => yields_number hamount fun _ => yields_pure rfl
  case inflict =>
    obtain ⟨htarget, hsource, hstatus, hduration, hvalues⟩ := hread
    refine yields_entity htarget fun target => yields_entity hsource fun source =>
      yields_key hstatus fun status => yields_number hduration fun duration => ?_
    have hnumbers := answers_bind hvalues fun v hv =>
      answers_bind (answers_asArray hv) fun items _ => answers_numbers items
    refine yields_bind (yields_lift hnumbers) fun values _ => ?_
    exact yields_bind (yields_perform (hw.inflict target source status duration values))
      fun _ _ => yields_pure rfl
  case larger =>
    obtain ⟨hx, hy⟩ := hread
    exact yields_number hx fun _ => yields_number hy fun _ => yields_pure rfl
  case swap =>
    obtain ⟨hx, hy⟩ := hread
    refine yields_bind (yields_lift hx) fun a ha => yields_bind (yields_lift hy) fun b hb =>
      yields_pure (Value.areInert_iff.2 ?_)
    exact List.forall_mem_cons.2 ⟨hb, List.forall_mem_cons.2 ⟨ha, nofun⟩⟩

end Functions

end Skirmish.Formula
