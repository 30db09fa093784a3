import Mathlib.Data.List.Forall2
import Skirmish.Proofs.Formula.Functions
import Skirmish.Proofs.Formula.Keeping

/-!
# Evaluations that run alongside

`Simulates R act act'`: from states related by `R`, two actions give the same value or the same
fault, and end in states related by `R` again. `Follows E V R act act'`: they do unless the first
one fails with a fault that `E` excuses.

1. `Follows` is closed under the ways in which actions are put together. Where the values are
   themselves actions, as arguments that wait are, `V` says how the values are related.
2. An expression learns of the world's state by the questions of `World` and changes it by its
   actions. So where the answers agree and the actions follow each other, the evaluations of every
   expression do that tries nothing again after an excused fault (`follows_eval`,
   `follows_resolve`). Without excuses these are all expressions (`simulates_resolve`).
-/

namespace Skirmish.Formula

/-! ## Actions -/

section Actions

variable {ε σ α β γ δ : Type} {V : α → β → Prop} {W : γ → δ → Prop} {R : σ → σ → Prop}

/-- Both succeed with values related by `V`, or both fail with the same fault, in states related
by `R`. -/
inductive SameEnd (V : α → β → Prop) (R : σ → σ → Prop) :
    EStateM.Result ε σ α → EStateM.Result ε σ β → Prop
  | ok {a : α} {b : β} {s t : σ} (value : V a b) (state : R s t) :
      SameEnd V R (.ok a s) (.ok b t)
  | error {s t : σ} (e : ε) (state : R s t) : SameEnd V R (.error e s) (.error e t)

/-- From related states, the actions end alike. -/
def Matches (V : α → β → Prop) (R : σ → σ → Prop) (act : EStateM ε σ α) (act' : EStateM ε σ β) :
    Prop :=
  ∀ s t, R s t → SameEnd V R (act s) (act' t)

/-- From related states, the actions give the same value or fault and end in related states. -/
def Simulates (R : σ → σ → Prop) (act act' : EStateM ε σ α) : Prop := Matches Eq R act act'

/-- The two ways of ending alike. -/
theorem SameEnd.ends {x : EStateM.Result ε σ α} {y : EStateM.Result ε σ β} (h : SameEnd V R x y) :
    (∃ a b s t, x = .ok a s ∧ y = .ok b t ∧ V a b ∧ R s t) ∨
      ∃ e s t, x = .error e s ∧ y = .error e t ∧ R s t := by
  cases h with
  | ok value state => exact .inl ⟨_, _, _, _, rfl, rfl, value, state⟩
  | error e state => exact .inr ⟨e, _, _, rfl, rfl, state⟩

theorem Matches.ends {act : EStateM ε σ α} {act' : EStateM ε σ β} (h : Matches V R act act')
    {s t : σ} (hst : R s t) :
    (∃ a b s' t', act s = .ok a s' ∧ act' t = .ok b t' ∧ V a b ∧ R s' t') ∨
      ∃ e s' t', act s = .error e s' ∧ act' t = .error e t' ∧ R s' t' := (h s t hst).ends

/-- After actions that end alike the states are related. -/
theorem Matches.after {act : EStateM ε σ α} {act' : EStateM ε σ β} (h : Matches V R act act')
    {s t : σ} (hst : R s t) : R (after act s) (after act' t) := by
  obtain ⟨a, b, s', t', hs, ht, -, state⟩ | ⟨e, s', t', hs, ht, state⟩ := h.ends hst
  · rwa [after_of_ok hs, after_of_ok ht]
  · rwa [after_of_error hs, after_of_error ht]

/-- Actions that end alike in the same state end the same. -/
theorem SameEnd.eq (hR : ∀ s t, R s t → s = t) {x y : EStateM.Result ε σ α}
    (h : SameEnd Eq R x y) : x = y := by
  cases h with
  | ok value state => rw [value, hR _ _ state]
  | error e state => rw [hR _ _ state]

/-- From related states, the first action fails with an excused fault or the two end alike. -/
def Follows (E : ε → Prop) (V : α → β → Prop) (R : σ → σ → Prop) (act : EStateM ε σ α)
    (act' : EStateM ε σ β) : Prop :=
  ∀ s t, R s t → (∃ e s', act s = .error e s' ∧ E e) ∨ SameEnd V R (act s) (act' t)

section Follows

variable {E : ε → Prop}

/-- The three ways in which an action follows another. -/
theorem Follows.ends {act : EStateM ε σ α} {act' : EStateM ε σ β} (h : Follows E V R act act')
    {s t : σ} (hst : R s t) :
    (∃ e s', act s = .error e s' ∧ E e) ∨
      (∃ a b s' t', act s = .ok a s' ∧ act' t = .ok b t' ∧ V a b ∧ R s' t') ∨
      ∃ e s' t', act s = .error e s' ∧ act' t = .error e t' ∧ R s' t' :=
  (h s t hst).imp_right SameEnd.ends

theorem follows_pure {a : α} {b : β} (h : V a b) :
    Follows E V R (pure a : EStateM ε σ α) (pure b : EStateM ε σ β) :=
  fun _ _ hst => .inr (.ok h hst)

theorem follows_throw (e : ε) :
    Follows E V R (throw e : EStateM ε σ α) (throw e : EStateM ε σ β) :=
  fun _ _ hst => .inr (.error e hst)

theorem follows_bind {act : EStateM ε σ α} {act' : EStateM ε σ β} {k : α → EStateM ε σ γ}
    {k' : β → EStateM ε σ δ} (h : Follows E V R act act')
    (hk : ∀ a b, V a b → Follows E W R (k a) (k' b)) : Follows E W R (act >>= k) (act' >>= k') := by
  intro s t hst
  obtain ⟨e, s', hs, he⟩ | ⟨a, b, s', t', hs, ht, value, state⟩ | ⟨e, s', t', hs, ht, state⟩ :=
    h.ends hst
  · exact .inl ⟨e, s', bind_of_error hs, he⟩
  · rw [bind_of_ok hs, bind_of_ok ht]
    exact hk a b value s' t' state
  · rw [bind_of_error hs, bind_of_error ht]
    exact .inr (.error e state)

/-- Actions with the same value go on in the same way. -/
theorem follows_bind_eq {act act' : EStateM ε σ α} {k : α → EStateM ε σ γ}
    {k' : α → EStateM ε σ δ} (h : Follows E Eq R act act')
    (hk : ∀ a, Follows E W R (k a) (k' a)) : Follows E W R (act >>= k) (act' >>= k') :=
  follows_bind h fun a _ hab => hab ▸ hk a

theorem follows_map {act : EStateM ε σ α} {act' : EStateM ε σ β} {f : α → γ} {f' : β → δ}
    (h : Follows E V R act act') (hf : ∀ a b, V a b → W (f a) (f' b)) :
    Follows E W R (f <$> act) (f' <$> act') := by
  rw [← bind_pure_comp, ← bind_pure_comp]
  exact follows_bind h fun a b hab => follows_pure (hf a b hab)

/-- Actions that go on by what they find. -/
theorem follows_get_bind {k : σ → EStateM ε σ γ} {k' : σ → EStateM ε σ δ}
    (h : ∀ s t, R s t →
      (∃ e s', k s s = .error e s' ∧ E e) ∨ SameEnd W R (k s s) (k' t t)) :
    Follows E W R (get >>= k) (get >>= k') := h

theorem follows_modify {f f' : σ → σ} (h : ∀ s t, R s t → R (f s) (f' t)) :
    Follows E Eq R (modify f : EStateM ε σ Unit) (modify f') :=
  fun s t hst => .inr (.ok rfl (h s t hst))

theorem follows_discard {act act' : EStateM ε σ α} (h : Follows E Eq R act act') :
    Follows E Eq R (discard act) (discard act') :=
  follows_bind_eq h fun _ => follows_pure rfl

end Follows

/-- Without excuses, to follow is to end alike. -/
theorem matches_iff_follows {act : EStateM ε σ α} {act' : EStateM ε σ β} :
    Matches V R act act' ↔ Follows (fun _ => False) V R act act' := by
  constructor
  · exact fun h s t hst => .inr (h s t hst)
  · intro h s t hst
    obtain ⟨e, s', -, he⟩ | hend := h s t hst
    · exact absurd he id
    · exact hend

theorem simulates_pure (a : α) : Simulates R (pure a : EStateM ε σ α) (pure a) :=
  matches_iff_follows.2 (follows_pure rfl)

theorem simulates_throw (e : ε) : Simulates R (throw e : EStateM ε σ α) (throw e) :=
  matches_iff_follows.2 (follows_throw e)

theorem simulates_bind {act act' : EStateM ε σ α} {k k' : α → EStateM ε σ γ}
    (h : Simulates R act act') (hk : ∀ a, Simulates R (k a) (k' a)) :
    Simulates R (act >>= k) (act' >>= k') :=
  matches_iff_follows.2 <| follows_bind_eq (matches_iff_follows.1 h) fun a =>
    matches_iff_follows.1 (hk a)

theorem simulates_modify {f f' : σ → σ} (h : ∀ s t, R s t → R (f s) (f' t)) :
    Simulates R (modify f : EStateM ε σ Unit) (modify f') :=
  fun s t hst => .ok rfl (h s t hst)

theorem simulates_discard {act act' : EStateM ε σ α} (h : Simulates R act act') :
    Simulates R (discard act) (discard act') :=
  simulates_bind h fun _ => simulates_pure _

end Actions

/-! ## Evaluations -/

section Evaluations

variable {σ α β : Type} {E : EvalError → Prop} {V : α → β → Prop} {R : σ → σ → Prop} {d : Nat}

/-- Both evaluations are at depth `d`, and the world's states are related by `R`. -/
structure Evaluation.At (d : Nat) (R : σ → σ → Prop) (s t : Evaluation σ) : Prop where
  left : s.depth = d
  right : t.depth = d
  state : R s.state t.state

theorem Evaluation.At.eq (hR : ∀ s t, R s t → s = t) (s t : Evaluation σ)
    (h : Evaluation.At d R s t) : s = t := by
  have hdepth : s.depth = t.depth := h.left.trans h.right.symm
  have hstate : s.state = t.state := hR _ _ h.state
  cases s
  cases t
  subst hdepth hstate
  rfl

theorem follows_lift (x : Except EvalError α) :
    Follows E Eq (Evaluation.At d R) (Evaluation.lift x) (Evaluation.lift x) := by
  cases x with
  | ok a => exact follows_pure rfl
  | error e => exact follows_throw e

theorem follows_ask {question question' : σ → α}
    (h : ∀ s t, R s t → question s = question' t) :
    Follows E Eq (Evaluation.At d R) (Evaluation.ask question) (Evaluation.ask question') :=
  fun _ _ hst => .inr (.ok (h _ _ hst.state) hst)

theorem follows_perform {act act' : Action σ α} (h : Follows E Eq R act act') :
    Follows E Eq (Evaluation.At d R) (Evaluation.perform act) (Evaluation.perform act') := by
  intro s t hst
  unfold Evaluation.perform
  obtain ⟨e, s', hs, he⟩ | ⟨a, b, s', t', hs, ht, value, state⟩ | ⟨e, s', t', hs, ht, state⟩ :=
    h.ends hst.state
  · rw [hs]
    exact .inl ⟨e, _, rfl, he⟩
  · rw [hs, ht]
    exact .inr (.ok value ⟨hst.left, hst.right, state⟩)
  · rw [hs, ht]
    exact .inr (.error e ⟨hst.left, hst.right, state⟩)

theorem follows_nested {act : Action (Evaluation σ) α} {act' : Action (Evaluation σ) β}
    (h : Follows E V (Evaluation.At (d + 1) R) act act') :
    Follows E V (Evaluation.At d R) (Evaluation.nested act) (Evaluation.nested act') := by
  intro s t hst
  unfold Evaluation.nested
  rw [hst.left, hst.right]
  by_cases hd : Evaluation.limit ≤ d
  · rw [if_pos hd, if_pos hd]
    exact .inr (.error _ hst)
  · rw [if_neg hd, if_neg hd]
    have hin : Evaluation.At (d + 1) R { s with depth := d + 1 } { t with depth := d + 1 } :=
      ⟨rfl, rfl, hst.state⟩
    have hout {s' t' : Evaluation σ} (h : Evaluation.At (d + 1) R s' t') :
        Evaluation.At d R { s' with depth := s'.depth - 1 } { t' with depth := t'.depth - 1 } :=
      ⟨congrArg (· - 1) h.left, congrArg (· - 1) h.right, h.state⟩
    obtain ⟨e, s', hs, he⟩ | ⟨a, b, s', t', hs, ht, value, state⟩ | ⟨e, s', t', hs, ht, state⟩ :=
      h.ends hin
    · rw [hs]
      exact .inl ⟨e, _, rfl, he⟩
    · rw [hs, ht]
      exact .inr (.ok value (hout state))
    · rw [hs, ht]
      exact .inr (.error e (hout state))

end Evaluations

/-! ## Functions -/

section Worlds

variable {σ : Type}

/-- On related states the worlds give the same answers, and their actions run alongside. -/
structure World.Simulates (w w' : World σ) (R : σ → σ → Prop) : Prop where
  entityExists : ∀ s t, R s t → w.entityExists s = w'.entityExists t
  players : ∀ s t, R s t → w.players s = w'.players t
  activePlayers : ∀ s t, R s t → w.activePlayers s = w'.activePlayers t
  stat : ∀ s t, R s t → w.stat s = w'.stat t
  harm : ∀ target source type amount,
    Formula.Simulates R (w.harm target source type amount) (w'.harm target source type amount)
  heal : ∀ target source amount,
    Formula.Simulates R (w.heal target source amount) (w'.heal target source amount)
  cast : ∀ caster target skill,
    Formula.Simulates R (w.cast caster target skill) (w'.cast caster target skill)
  inflict : ∀ target source status duration values,
    Formula.Simulates R (w.inflict target source status duration values)
      (w'.inflict target source status duration values)
  roll : ∀ upper s t, R s t →
    (w.roll upper s).1 = (w'.roll upper t).1 ∧ R (w.roll upper s).2 (w'.roll upper t).2

/-- On related states the worlds give the same answers, and their actions follow each other. -/
structure World.Follows (E : EvalError → Prop) (w w' : World σ) (R : σ → σ → Prop) : Prop where
  entityExists : ∀ s t, R s t → w.entityExists s = w'.entityExists t
  players : ∀ s t, R s t → w.players s = w'.players t
  activePlayers : ∀ s t, R s t → w.activePlayers s = w'.activePlayers t
  stat : ∀ s t, R s t → w.stat s = w'.stat t
  harm : ∀ target source type amount, Formula.Follows E Eq R
    (w.harm target source type amount) (w'.harm target source type amount)
  heal : ∀ target source amount, Formula.Follows E Eq R
    (w.heal target source amount) (w'.heal target source amount)
  cast : ∀ caster target skill, Formula.Follows E Eq R
    (w.cast caster target skill) (w'.cast caster target skill)
  inflict : ∀ target source status duration values, Formula.Follows E Eq R
    (w.inflict target source status duration values)
    (w'.inflict target source status duration values)
  roll : ∀ upper s t, R s t →
    (w.roll upper s).1 = (w'.roll upper t).1 ∧ R (w.roll upper s).2 (w'.roll upper t).2

theorem World.simulates_iff_follows {w w' : World σ} {R : σ → σ → Prop} :
    w.Simulates w' R ↔ World.Follows (fun _ => False) w w' R := by
  constructor
  · exact fun h =>
      { h with
        harm := fun _ _ _ _ => matches_iff_follows.1 (h.harm _ _ _ _)
        heal := fun _ _ _ => matches_iff_follows.1 (h.heal _ _ _)
        cast := fun _ _ _ => matches_iff_follows.1 (h.cast _ _ _)
        inflict := fun _ _ _ _ _ => matches_iff_follows.1 (h.inflict _ _ _ _ _) }
  · exact fun h =>
      { h with
        harm := fun _ _ _ _ => matches_iff_follows.2 (h.harm _ _ _ _)
        heal := fun _ _ _ => matches_iff_follows.2 (h.heal _ _ _)
        cast := fun _ _ _ => matches_iff_follows.2 (h.cast _ _ _)
        inflict := fun _ _ _ _ _ => matches_iff_follows.2 (h.inflict _ _ _ _ _) }

end Worlds

section Functions

variable {σ : Type} {E : EvalError → Prop} {R : σ → σ → Prop} {d : Nat} {w w' : World σ}

/-- The same value, or two evaluations at depth `d` that follow each other. -/
inductive SameArg (E : EvalError → Prop) (d : Nat) (R : σ → σ → Prop) : Arg σ → Arg σ → Prop
  | value (v : Value) : SameArg E d R (.value v) (.value v)
  | deferred {run run' : Action (Evaluation σ) Value}
      (h : Follows E Eq (Evaluation.At d R) run run') :
      SameArg E d R (.deferred run) (.deferred run')

theorem follows_roll (h : World.Follows E w w' R) (upper : UInt32) :
    Follows E Eq (Evaluation.At d R) (Evaluation.roll w upper) (Evaluation.roll w' upper) :=
  fun s t hst => .inr (.ok (h.roll upper _ _ hst.state).1
    ⟨hst.left, hst.right, (h.roll upper s.state t.state hst.state).2⟩)

theorem SameArg.force {a a' : Arg σ} (h : SameArg E d R a a') :
    Follows E Eq (Evaluation.At d R) a.force a'.force := by
  cases h with
  | value v => exact follows_pure rfl
  | deferred h => exact h

theorem SameArg.value?_eq {a a' : Arg σ} (h : SameArg E d R a a') : a.value? = a'.value? := by
  cases h <;> rfl

/-- The function does not go on after an excused fault. -/
def Function.Steady (E : EvalError → Prop) (f : Function) : Prop :=
  f.rule = .firstSuccess → ∀ e, ¬E e

theorem Function.steady_none (f : Function) : f.Steady fun _ => False := fun _ _ => id

/-- An argument is evaluated, or waits. -/
theorem follows_argument {act act' : Action (Evaluation σ) Value}
    (h : Follows E Eq (Evaluation.At d R) act act') (lazy : Bool) :
    Follows E (SameArg E d R) (Evaluation.At d R)
      (if lazy then pure (Arg.deferred act) else Arg.value <$> act)
      (if lazy then pure (Arg.deferred act') else Arg.value <$> act') := by
  cases lazy with
  | true => exact follows_pure (.deferred h)
  | false => exact follows_map h fun a b hab => hab ▸ .value a

/-- No function in the expression does. -/
abbrev Expr.Steady (E : EvalError → Prop) (e : Expr) : Prop := ∀ f ∈ e.functions, f.Steady E

variable {args args' : List (Arg σ)} (h : List.Forall₂ (SameArg E d R) args args')

include h

theorem sameArgs_getElem?_bind (i : Nat) :
    args[i]?.bind Arg.value? = args'[i]?.bind Arg.value? := by
  induction h generalizing i with
  | nil => rfl
  | cons ha _ ih =>
    cases i with
    | zero => exact ha.value?_eq
    | succ i => exact ih i

/-- What a function makes of the values among its arguments. -/
theorem sameArgs_eager (f : Function) : f.eager args = f.eager args' := by
  funext i
  unfold Function.eager
  rw [sameArgs_getElem?_bind h i, h.length_eq]

theorem follows_force_getD (i : Nat) :
    Follows E Eq (Evaluation.At d R) (args.getD i (.value .null)).force
      (args'.getD i (.value .null)).force := by
  induction h generalizing i with
  | nil => exact follows_pure rfl
  | cons ha _ ih =>
    cases i with
    | zero => exact ha.force
    | succ i => exact ih i

theorem follows_firstSuccess (hE : ∀ e, ¬E e) (last : EvalError) :
    Follows E Eq (Evaluation.At d R) (Function.firstSuccess last args)
      (Function.firstSuccess last args') := by
  induction h generalizing last with
  | nil => exact follows_throw last
  | cons ha _ ih =>
    intro s t hst
    rw [Function.firstSuccess.eq_2, Function.firstSuccess.eq_2]
    obtain ⟨e, s', -, he⟩ | ⟨a, b, s', t', hs, ht, value, state⟩ | ⟨e, s', t', hs, ht, state⟩ :=
      ha.force.ends hst
    · exact absurd he (hE e)
    · simp only [hs, ht]
      exact .inr (.ok value state)
    · simp only [hs, ht]
      exact ih e s' t' state

/-- A function meets the world in its answers and its actions alone. -/
theorem follows_run (hw : World.Follows E w w' R) {f : Function} (hf : f.Steady E) :
    Follows E Eq (Evaluation.At d R) (f.run w args) (f.run w' args') := by
  have hnumbers : f.eagerNumbers args = f.eagerNumbers args' := by
    unfold Function.eagerNumbers; rw [sameArgs_eager h f, h.length_eq]
  have hvalues : f.eagerValues args = f.eagerValues args' := by
    unfold Function.eagerValues; rw [sameArgs_eager h f, h.length_eq]
  unfold Function.Steady at hf
  unfold Function.run
  rw [hnumbers, hvalues, sameArgs_eager h f, h.length_eq]
  -- All rules but the one that tries its arguments in turn are put together from these actions.
  cases hrule : f.rule
  case firstSuccess => exact follows_firstSuccess h (hf hrule) _
  all_goals
    repeat' first
      | with_reducible exact follows_pure rfl
      | with_reducible exact follows_throw _
      | with_reducible exact follows_lift _
      | with_reducible exact follows_ask hw.players
      | with_reducible exact follows_ask hw.activePlayers
      | exact follows_ask fun s t hst => congrFun (congrFun (hw.stat s t hst) _) _
      | with_reducible exact follows_roll hw _
      | with_reducible exact follows_perform (hw.harm _ _ _ _)
      | with_reducible exact follows_perform (hw.heal _ _ _)
      | with_reducible exact follows_perform (hw.cast _ _ _)
      | with_reducible exact follows_perform (hw.inflict _ _ _ _ _)
      | with_reducible exact follows_force_getD h _
      | with_reducible refine follows_bind_eq ?_ fun _ => ?_
      | split
      | dsimp only

theorem follows_call (hw : World.Follows E w w' R) {f : Function} (hf : f.Steady E) :
    Follows E Eq (Evaluation.At d R) (f.call w args) (f.call w' args') := by
  unfold Function.call
  rw [h.length_eq]
  split
  · exact follows_run h hw hf
  · exact follows_throw _

end Functions

/-! ## Expressions -/

section Expressions

variable {σ : Type} {E : EvalError → Prop} {R : σ → σ → Prop} {d : Nat} {w w' : World σ}

theorem follows_evalLeaf (hw : World.Follows E w w' R) {v : Value}
    (hv : (Expr.leaf v).Steady E) :
    Follows E Eq (Evaluation.At d R) (Expr.evalLeaf w v) (Expr.evalLeaf w' v) := by
  cases v with
  | key name =>
    refine follows_bind_eq
      (follows_ask fun s t hst => congrFun (hw.entityExists s t hst) name) fun b => ?_
    cases b <;> exact follows_pure rfl
  | operator op => exact follows_lift _
  | function f => exact follows_call .nil hw (hv f List.mem_cons_self)
  | _ => exact follows_pure rfl

mutual

/-- **Evaluation.** Where worlds answer alike and their actions follow each other, so do evaluations
in them. -/
theorem follows_eval (hw : World.Follows E w w' R) (d : Nat) :
    ∀ e : Expr, e.Steady E →
      Follows E Eq (Evaluation.At d R) (e.eval w) (e.eval w')
  | .leaf v, h => by
    rw [Expr.eval, Expr.eval]
    exact follows_nested (follows_evalLeaf hw h)
  | .apply op operands, h => by
    rw [Expr.eval, Expr.eval]
    exact follows_nested (follows_bind_eq (follows_evalOperands hw (d + 1) operands h) fun _ =>
      follows_lift _)
  | .call f arguments, h => by
    have hf : f.Steady E := h f List.mem_cons_self
    have harguments := follows_evalArguments hw (d + 1) f 0 arguments fun g hg => h g (.tail f hg)
    rw [Expr.eval, Expr.eval]
    exact follows_nested (follows_bind harguments fun _ _ hargs => follows_call hargs hw hf)

theorem follows_evalOperands (hw : World.Follows E w w' R) (d : Nat) :
    ∀ es : List Expr, (∀ f ∈ Expr.functionsOfEach es, f.Steady E) →
      Follows E Eq (Evaluation.At d R) (Expr.evalOperands w es) (Expr.evalOperands w' es)
  | [], _ => by
    rw [Expr.evalOperands, Expr.evalOperands]
    exact follows_pure rfl
  | e :: rest, h => by
    obtain ⟨he, hrest⟩ := List.forall_mem_append.1 h
    rw [Expr.evalOperands, Expr.evalOperands]
    exact follows_bind_eq (follows_eval hw d e he) fun _ =>
      follows_bind_eq (follows_evalOperands hw d rest hrest) fun _ => follows_pure rfl

/-- Arguments that were evaluated are the same, and those that wait will follow each other. -/
theorem follows_evalArguments (hw : World.Follows E w w' R) (d : Nat) (f : Function) (i : Nat) :
    ∀ es : List Expr, (∀ f ∈ Expr.functionsOfEach es, f.Steady E) →
      Follows E (List.Forall₂ (SameArg E d R)) (Evaluation.At d R) (Expr.evalArguments w f i es)
        (Expr.evalArguments w' f i es)
  | [], _ => by
    rw [Expr.evalArguments, Expr.evalArguments]
    exact follows_pure .nil
  | e :: rest, h => by
    obtain ⟨he, hrest⟩ := List.forall_mem_append.1 h
    rw [evalArguments_cons, evalArguments_cons]
    exact follows_bind (follows_argument (follows_eval hw d e he) (f.isLazy i)) fun _ _ ha =>
      follows_map (follows_evalArguments hw d f (i + 1) rest hrest) fun _ _ has => .cons ha has

end

/-- Evaluations from the outside follow each other. -/
theorem follows_resolve (hw : World.Follows E w w' R) {e : Expr}
    (he : e.Steady E) : Follows E Eq R (e.resolve w) (e.resolve w') := by
  intro s t hst
  have hin : Evaluation.At 0 R ⟨s, 0⟩ ⟨t, 0⟩ := ⟨rfl, rfl, hst⟩
  unfold Expr.resolve
  obtain ⟨err, s', hs, herr⟩ | ⟨a, b, s', t', hs, ht, value, state⟩ |
    ⟨err, s', t', hs, ht, state⟩ := (follows_eval hw 0 e he).ends hin
  · rw [hs]
    exact .inl ⟨err, _, rfl, herr⟩
  · rw [hs, ht]
    exact .inr (.ok value state.state)
  · rw [hs, ht]
    exact .inr (.error err state.state)

/-- Evaluations from the outside run alongside. -/
theorem simulates_resolve (hw : w.Simulates w' R) (e : Expr) :
    Simulates R (e.resolve w) (e.resolve w') :=
  matches_iff_follows.2 <|
    follows_resolve (World.simulates_iff_follows.1 hw) fun _ _ => Function.steady_none _

theorem simulates_evaluate (hw : w.Simulates w' R) (v : Vocabulary) (text : String) :
    Simulates R (evaluate v w text) (evaluate v w' text) := by
  intro s t hst
  unfold evaluate
  cases Expr.parse v text with
  | error e => exact .error _ hst
  | ok e =>
    obtain ⟨a, b, s', t', hs, ht, value, state⟩ | ⟨err, s', t', hs, ht, state⟩ :=
      (simulates_resolve hw e).ends hst
    · simp only [hs, ht]
      exact .ok value state
    · simp only [hs, ht]
      exact .error _ state

end Expressions

end Skirmish.Formula
