import Mathlib.Order.Defs.Unbundled
import Skirmish.Formula.Eval

/-!
# Relations that survive an evaluation

`Keeps R act`: the preorder `R` holds between the states before and after `act`, also when it
fails.

1. `Keeps` is closed under the ways in which actions are put together.
2. An expression reaches the world's state only through the five actions of `World`. So what these
   keep is kept by every evaluation (`keeps_eval`, `keeps_resolve`), which also ends at the depth
   it began at (`Evaluation.Lift`).
-/

namespace Skirmish.Formula

/-! ## Actions -/

section Actions

variable {ε σ α β : Type} {R : σ → σ → Prop}

/-- The state after an action, whether it failed or not. -/
def after (act : EStateM ε σ α) (s : σ) : σ :=
  match act s with
  | .ok _ t => t
  | .error _ t => t

/-- `R` holds between the states before and after the action. -/
def Keeps (R : σ → σ → Prop) (act : EStateM ε σ α) : Prop := ∀ s, R s (after act s)

theorem after_of_ok {act : EStateM ε σ α} {s t : σ} {a : α} (h : act s = .ok a t) :
    after act s = t := by unfold after; rw [h]

theorem after_of_error {act : EStateM ε σ α} {s t : σ} {e : ε} (h : act s = .error e t) :
    after act s = t := by unfold after; rw [h]

theorem after_congr {act : EStateM ε σ α} {act' : EStateM ε σ α} {s : σ} (h : act s = act' s) :
    after act s = after act' s := by unfold after; rw [h]

@[simp] theorem after_pure (a : α) (s : σ) : after (pure a : EStateM ε σ α) s = s := rfl

@[simp] theorem after_throw (e : ε) (s : σ) : after (throw e : EStateM ε σ α) s = s := rfl

theorem bind_of_ok {act : EStateM ε σ α} {k : α → EStateM ε σ β} {s t : σ} {a : α}
    (h : act s = .ok a t) : (act >>= k) s = k a t := by
  show EStateM.bind act k s = _
  unfold EStateM.bind; rw [h]

theorem bind_of_error {act : EStateM ε σ α} {k : α → EStateM ε σ β} {s t : σ} {e : ε}
    (h : act s = .error e t) : (act >>= k) s = .error e t := by
  show EStateM.bind act k s = _
  unfold EStateM.bind; rw [h]

theorem after_bind_of_ok {act : EStateM ε σ α} {k : α → EStateM ε σ β} {s t : σ} {a : α}
    (h : act s = .ok a t) : after (act >>= k) s = after (k a) t := by
  unfold after; rw [bind_of_ok h]

theorem after_bind_of_error {act : EStateM ε σ α} {k : α → EStateM ε σ β} {s t : σ} {e : ε}
    (h : act s = .error e t) : after (act >>= k) s = t := after_of_error (bind_of_error h)

theorem bind_eq_ok {act : EStateM ε σ α} {k : α → EStateM ε σ β} {s t : σ} {b : β}
    (h : (act >>= k) s = .ok b t) : ∃ a u, act s = .ok a u ∧ k a u = .ok b t := by
  cases ha : act s with
  | ok a u => exact ⟨a, u, rfl, by rwa [bind_of_ok ha] at h⟩
  | error e u => rw [bind_of_error ha] at h; cases h

theorem exists_of_bind_eq_ok {x : Except ε α} {k : α → Except ε β} {b : β}
    (h : (x >>= k) = .ok b) : ∃ a, x = .ok a ∧ k a = .ok b := by
  cases x with
  | error e => cases h
  | ok a => exact ⟨a, rfl, h⟩

/-- An answer of one's own does not change where an action ends. -/
theorem after_bind_pure (act : EStateM ε σ α) (b : β) (s : σ) :
    after (act >>= fun _ => pure b) s = after act s := by
  cases ha : act s with
  | ok a t => rw [after_bind_of_ok ha, after_of_ok ha]; rfl
  | error e t => rw [after_bind_of_error ha, after_of_error ha]

theorem map_eq_ok {act : EStateM ε σ α} {f : α → β} {s t : σ} {b : β}
    (h : (f <$> act) s = .ok b t) : ∃ a, b = f a ∧ act s = .ok a t := by
  have h' : EStateM.map f act s = .ok b t := h
  unfold EStateM.map at h'
  cases ha : act s with
  | ok a u => rw [ha] at h'; cases h'; exact ⟨a, rfl, rfl⟩
  | error e u => rw [ha] at h'; cases h'

theorem Keeps.of_ok {act : EStateM ε σ α} (h : Keeps R act) {s t : σ} {a : α}
    (ha : act s = .ok a t) : R s t := after_of_ok ha ▸ h s

theorem Keeps.of_error {act : EStateM ε σ α} (h : Keeps R act) {s t : σ} {e : ε}
    (ha : act s = .error e t) : R s t := after_of_error ha ▸ h s

variable [IsPreorder σ R]

theorem keeps_pure (a : α) : Keeps R (pure a : EStateM ε σ α) := fun s => refl_of R s

theorem keeps_throw (e : ε) : Keeps R (throw e : EStateM ε σ α) := fun s => refl_of R s

theorem keeps_get : Keeps R (get : EStateM ε σ σ) := fun s => refl_of R s

theorem keeps_bind {act : EStateM ε σ α} {k : α → EStateM ε σ β} (hact : Keeps R act)
    (hk : ∀ a, Keeps R (k a)) : Keeps R (act >>= k) := by
  intro s
  cases ha : act s with
  | ok a t =>
    rw [after_bind_of_ok ha]
    exact trans_of R (hact.of_ok ha) (hk a t)
  | error e t =>
    rw [after_bind_of_error ha]
    exact hact.of_error ha

omit [IsPreorder σ R] in
theorem keeps_map {act : EStateM ε σ α} (f : α → β) (hact : Keeps R act) :
    Keeps R (f <$> act) := by
  intro s
  have h : after (f <$> act) s = after act s := by
    show after (EStateM.map f act) s = _
    unfold after EStateM.map
    cases act s <;> rfl
  rw [h]
  exact hact s

end Actions

/-! ## Evaluations -/

section Evaluations

variable {σ α : Type} {R : σ → σ → Prop}

/-- The world's states are related by `R`, and the depth is the same. -/
def Evaluation.Lift (R : σ → σ → Prop) (s t : Evaluation σ) : Prop :=
  t.depth = s.depth ∧ R s.state t.state

variable [IsPreorder σ R]

instance : IsPreorder (Evaluation σ) (Evaluation.Lift R) where
  refl s := ⟨rfl, refl_of R s.state⟩
  trans _ _ _ h k := ⟨k.1.trans h.1, trans_of R h.2 k.2⟩

theorem keeps_lift (x : Except EvalError α) :
    Keeps (Evaluation.Lift R) (Evaluation.lift x : Action (Evaluation σ) α) := by
  cases x with
  | ok a => exact keeps_pure a
  | error e => exact keeps_throw e

theorem keeps_ask (question : σ → α) : Keeps (Evaluation.Lift R) (Evaluation.ask question) :=
  fun s => refl_of (Evaluation.Lift R) s

omit [IsPreorder σ R] in
theorem keeps_perform {act : Action σ α} (h : Keeps R act) :
    Keeps (Evaluation.Lift R) (Evaluation.perform act) := by
  intro s
  unfold after Evaluation.perform
  cases ha : act s.state with
  | ok a t => exact ⟨rfl, h.of_ok ha⟩
  | error e t => exact ⟨rfl, h.of_error ha⟩

omit [IsPreorder σ R] in
theorem keeps_roll {w : World σ} (h : ∀ upper s, R s (w.roll upper s).2) (upper : UInt32) :
    Keeps (Evaluation.Lift R) (Evaluation.roll w upper) :=
  fun s => ⟨rfl, h upper s.state⟩

theorem keeps_nested {act : Action (Evaluation σ) α} (h : Keeps (Evaluation.Lift R) act) :
    Keeps (Evaluation.Lift R) (Evaluation.nested act) := by
  intro s
  by_cases hs : Evaluation.limit ≤ s.depth
  · have he : after (Evaluation.nested act) s = s := by
      unfold after Evaluation.nested; rw [if_pos hs]
    rw [he]
    exact refl_of _ s
  · have hdeep := h { s with depth := s.depth + 1 }
    have he : after (Evaluation.nested act) s =
        { after act { s with depth := s.depth + 1 } with
          depth := (after act { s with depth := s.depth + 1 }).depth - 1 } := by
      unfold after Evaluation.nested
      rw [if_neg hs]
      cases act { s with depth := s.depth + 1 } <;> rfl
    rw [he]
    exact ⟨by rw [hdeep.1]; exact Nat.add_sub_cancel .., hdeep.2⟩

end Evaluations

/-! ## Functions -/

section Functions

variable {σ : Type} {R : σ → σ → Prop} {w : World σ}

/-- `R` holds between the states before and after each action of the world. -/
structure World.Keeps (w : World σ) (R : σ → σ → Prop) : Prop where
  harm : ∀ target source type amount, Formula.Keeps R (w.harm target source type amount)
  heal : ∀ target source amount, Formula.Keeps R (w.heal target source amount)
  cast : ∀ caster target skill, Formula.Keeps R (w.cast caster target skill)
  inflict : ∀ target source status duration values,
    Formula.Keeps R (w.inflict target source status duration values)
  roll : ∀ upper s, R s (w.roll upper s).2

variable [IsPreorder σ R]

theorem keeps_force {a : Arg σ} (h : ∀ run, a = .deferred run → Keeps (Evaluation.Lift R) run) :
    Keeps (Evaluation.Lift R) a.force := by
  cases a with
  | value v => exact keeps_pure v
  | deferred run => exact h run rfl

/-- Every argument that waits keeps `R`. -/
def DeferredKeep (R : σ → σ → Prop) (args : List (Arg σ)) : Prop :=
  ∀ run, .deferred run ∈ args → Keeps (Evaluation.Lift R) run

theorem keeps_force_getD {args : List (Arg σ)} (h : DeferredKeep R args) (i : Nat) :
    Keeps (Evaluation.Lift R) (args.getD i (.value .null)).force := by
  refine keeps_force fun run hrun => h run ?_
  rw [List.getD_eq_getElem?_getD] at hrun
  cases hi : args[i]? with
  | none => rw [hi] at hrun; cases hrun
  | some a =>
    rw [hi] at hrun
    exact hrun ▸ List.mem_of_getElem? hi

theorem keeps_firstSuccess (last : EvalError) {args : List (Arg σ)} (h : DeferredKeep R args) :
    Keeps (Evaluation.Lift R) (Function.firstSuccess last args) := by
  induction args generalizing last with
  | nil => exact keeps_throw last
  | cons a rest ih =>
    have ha : Keeps (Evaluation.Lift R) a.force :=
      keeps_force fun run hrun => h run (hrun ▸ List.mem_cons_self)
    intro s
    cases hs : a.force s with
    | ok v t =>
      have he : after (Function.firstSuccess last (a :: rest)) s = t := by
        unfold after Function.firstSuccess; rw [hs]
      rw [he]
      exact ha.of_ok hs
    | error e t =>
      have he : after (Function.firstSuccess last (a :: rest)) s =
          after (Function.firstSuccess e rest) t := by
        unfold after
        rw [Function.firstSuccess.eq_2]
        simp only [hs]
      rw [he]
      have hrest := ih e (fun run hrun => h run (List.mem_cons_of_mem a hrun)) t
      exact trans_of _ (ha.of_error hs) hrest

/-- A function does nothing to the world but by the world's own actions. -/
theorem keeps_run (hw : w.Keeps R) (f : Function) {args : List (Arg σ)} (h : DeferredKeep R args) :
    Keeps (Evaluation.Lift R) (f.run w args) := by
  unfold Function.run
  cases f.rule
  case firstSuccess => exact keeps_firstSuccess _ h
  all_goals
    repeat' first
      | with_reducible exact keeps_pure _
      | with_reducible exact keeps_throw _
      | with_reducible exact keeps_lift _
      | with_reducible exact keeps_ask _
      | with_reducible exact keeps_roll hw.roll _
      | with_reducible exact keeps_perform (hw.harm _ _ _ _)
      | with_reducible exact keeps_perform (hw.heal _ _ _)
      | with_reducible exact keeps_perform (hw.cast _ _ _)
      | with_reducible exact keeps_perform (hw.inflict _ _ _ _ _)
      | with_reducible exact keeps_force_getD h _
      | with_reducible refine keeps_bind ?_ fun _ => ?_
      | split
      | dsimp only

theorem keeps_call (hw : w.Keeps R) (f : Function) {args : List (Arg σ)} (h : DeferredKeep R args) :
    Keeps (Evaluation.Lift R) (f.call w args) := by
  unfold Function.call
  split
  · exact keeps_run hw f h
  · exact keeps_throw _

end Functions

/-! ## Expressions -/

section Expressions

variable {σ : Type} {R : σ → σ → Prop} [IsPreorder σ R] {w : World σ}

theorem keeps_evalLeaf (hw : w.Keeps R) (v : Value) :
    Keeps (Evaluation.Lift R) (Expr.evalLeaf w v) := by
  have hcall (f : Function) : Keeps (Evaluation.Lift R) (f.call w []) :=
    keeps_call hw f fun _ h => absurd h List.not_mem_nil
  cases v with
  | key name =>
    refine keeps_bind (keeps_ask _) fun b => ?_
    cases b <;> exact keeps_pure _
  | operator op => exact keeps_lift _
  | function f => exact hcall f
  | _ => exact keeps_pure _

omit [IsPreorder σ R] in
theorem evalArguments_cons (w : World σ) (f : Function) (i : Nat) (e : Expr) (rest : List Expr) :
    Expr.evalArguments w f i (e :: rest) =
      (if f.isLazy i then pure (Arg.deferred (e.eval w)) else Arg.value <$> e.eval w) >>= fun a =>
        (a :: ·) <$> Expr.evalArguments w f (i + 1) rest := by
  rw [Expr.evalArguments]
  by_cases hf : f.isLazy i = true
  · rw [if_pos hf, if_pos hf]; rfl
  · rw [if_neg hf, if_neg hf]; rfl

mutual

/-- **Evaluation.** What the world's actions keep is kept by every evaluation. -/
theorem keeps_eval (hw : w.Keeps R) : ∀ e : Expr, Keeps (Evaluation.Lift R) (e.eval w)
  | .leaf v => by
    rw [Expr.eval]
    exact keeps_nested (keeps_evalLeaf hw v)
  | .apply op operands => by
    rw [Expr.eval]
    exact keeps_nested (keeps_bind (keeps_evalOperands hw operands) fun _ => keeps_lift _)
  | .call f arguments => by
    rw [Expr.eval]
    refine keeps_nested fun s => ?_
    have hargs := keeps_evalArguments hw f 0 arguments
    cases hs : Expr.evalArguments w f 0 arguments s with
    | ok args t =>
      have hrun := keeps_call hw f (hargs.2 hs)
      rw [after_bind_of_ok hs]
      exact trans_of _ (hargs.1.of_ok hs) (hrun t)
    | error e t =>
      rw [after_bind_of_error hs]
      exact hargs.1.of_error hs

theorem keeps_evalOperands (hw : w.Keeps R) :
    ∀ es : List Expr, Keeps (Evaluation.Lift R) (Expr.evalOperands w es)
  | [] => by
    rw [Expr.evalOperands]
    exact keeps_pure _
  | e :: rest => by
    rw [Expr.evalOperands]
    exact keeps_bind (keeps_eval hw e) fun _ =>
      keeps_bind (keeps_evalOperands hw rest) fun _ => keeps_pure _

/-- Arguments keep `R` when they are evaluated, and the waiting ones will. -/
theorem keeps_evalArguments (hw : w.Keeps R) (f : Function) (i : Nat) :
    ∀ es : List Expr, Keeps (Evaluation.Lift R) (Expr.evalArguments w f i es) ∧
      ∀ {s args t}, Expr.evalArguments w f i es s = .ok args t → DeferredKeep R args
  | [] => by
    rw [Expr.evalArguments]
    refine ⟨keeps_pure _, ?_⟩
    intro s args t h
    cases h
    exact fun _ h => absurd h List.not_mem_nil
  | e :: rest => by
    have he := keeps_eval hw e
    have hrest := keeps_evalArguments hw f (i + 1) rest
    rw [evalArguments_cons]
    constructor
    · refine keeps_bind ?_ fun _ => keeps_map _ hrest.1
      by_cases hf : f.isLazy i = true
      · rw [if_pos hf]; exact keeps_pure _
      · rw [if_neg hf]; exact keeps_map _ he
    · intro s args t h run hrun
      obtain ⟨a, u, ha, h⟩ := bind_eq_ok h
      obtain ⟨as, rfl, has⟩ := map_eq_ok h
      rcases List.mem_cons.1 hrun with rfl | hrun
      · by_cases hf : f.isLazy i = true
        · rw [if_pos hf] at ha; cases ha; exact he
        · rw [if_neg hf] at ha
          obtain ⟨x, hx, -⟩ := map_eq_ok ha
          cases hx
      · exact hrest.2 has run hrun

end

/-- An evaluation from the outside keeps what the world's actions keep. -/
theorem keeps_resolve (hw : w.Keeps R) (e : Expr) : Keeps R (e.resolve w) := by
  intro s
  have he := (keeps_eval hw e ⟨s, 0⟩).2
  unfold after Expr.resolve at *
  cases hs : e.eval w ⟨s, 0⟩ <;> rw [hs] at he <;> exact he

end Expressions

end Skirmish.Formula
