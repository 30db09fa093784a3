import Skirmish.Proofs.Formula.Environment

/-!
# The limit of nesting

An evaluation may nest 256 expressions. An expression that is no higher than that is evaluated as if
there were no limit, and one that is higher fails, unless a part of it waits and may never be asked
for.

1. `Expr.evalUnbounded` evaluates without the limit. From a depth at which there is room for all
   of an expression, its evaluation is the same with and without it (`sameAt_unbounded`).
2. `fails_of_high`: where there is none, and no argument waits, the evaluation fails.
3. `inTurn_eval`: an evaluator is back at its depth after each expression, so it is as good as a new
   one for the next.
-/

namespace Skirmish.Formula

open Evaluation (nested lift)

variable {σ : Type}

/-! ## Evaluation without the limit -/

/-- Runs an action one level deeper, however deep that is. -/
def Evaluation.unbounded {α : Type} (act : Action (Evaluation σ) α) :
    Action (Evaluation σ) α := fun s =>
  match act { s with depth := s.depth + 1 } with
  | .ok a t => .ok a { t with depth := t.depth - 1 }
  | .error e t => .error e { t with depth := t.depth - 1 }

open Evaluation (unbounded)

namespace Expr

mutual

/-- Evaluates an expression without the limit. -/
def evalUnbounded (w : World σ) : Expr → Action (Evaluation σ) Value
  | leaf v => unbounded (evalLeaf w v)
  | apply op operands => unbounded do lift (op.apply (← evalOperandsUnbounded w operands))
  | call f arguments => unbounded do f.call w (← evalArgumentsUnbounded w f 0 arguments)

/-- Evaluates operands in order. -/
def evalOperandsUnbounded (w : World σ) : List Expr → Action (Evaluation σ) (List Value)
  | [] => return []
  | e :: rest => do
    let v ← evalUnbounded w e
    return v :: (← evalOperandsUnbounded w rest)

/-- Evaluates the arguments of a call in order, from position `i` on, and leaves those in lazy
positions for the function. -/
def evalArgumentsUnbounded (w : World σ) (f : Function) (i : Nat) :
    List Expr → Action (Evaluation σ) (List (Arg σ))
  | [] => return []
  | e :: rest => do
    let a ← if f.isLazy i then pure (Arg.deferred (evalUnbounded w e))
      else Arg.value <$> evalUnbounded w e
    return a :: (← evalArgumentsUnbounded w f (i + 1) rest)

end

/-- Evaluates an expression without the limit, from the outside. -/
def resolveUnbounded (w : World σ) (e : Expr) : Action σ Value := fun s =>
  match e.evalUnbounded w ⟨s, 0⟩ with
  | .ok v t => .ok v t.state
  | .error err t => .error err t.state

theorem evalArgumentsUnbounded_cons (w : World σ) (f : Function) (i : Nat) (e : Expr)
    (rest : List Expr) :
    evalArgumentsUnbounded w f i (e :: rest) =
      (if f.isLazy i then pure (Arg.deferred (e.evalUnbounded w))
        else Arg.value <$> e.evalUnbounded w) >>= fun a =>
        (a :: ·) <$> evalArgumentsUnbounded w f (i + 1) rest := by
  rw [evalArgumentsUnbounded]
  by_cases hf : f.isLazy i = true
  · rw [if_pos hf, if_pos hf]; rfl
  · rw [if_neg hf, if_neg hf]; rfl

end Expr

section Unbounded

variable {w : World σ} {d : Nat}

/-- Below the limit nothing is refused. -/
theorem sameAt_nested {α : Type} {act act' : Action (Evaluation σ) α} (hd : d < Evaluation.limit)
    (h : SameAt (d + 1) act act') : SameAt d (unbounded act) (nested act') :=
  SameAt.congr (follows_nested h) fun _ => (Expr.nested_of_lt hd).symm

namespace Expr

mutual

/-- **Room.** Where all of an expression may be nested, it is evaluated as without the limit. -/
theorem sameAt_unbounded (w : World σ) (d : Nat) : ∀ e : Expr, d + e.height ≤ Evaluation.limit →
    SameAt d (e.evalUnbounded w) (e.eval w)
  | leaf v, hd => by
    rw [height] at hd
    rw [evalUnbounded, eval]
    exact sameAt_nested hd (sameAt_evalLeaf w (d + 1) v)
  | apply op operands, hd => by
    rw [height] at hd
    rw [evalUnbounded, eval]
    exact sameAt_nested (by omega) <| follows_bind_eq
      (sameAt_operandsUnbounded w (d + 1) operands (by omega)) fun _ => follows_lift _
  | call f arguments, hd => by
    rw [height] at hd
    rw [evalUnbounded, eval]
    exact sameAt_nested (by omega) <| follows_bind
      (sameAt_argumentsUnbounded w (d + 1) f 0 arguments (by omega)) fun _ _ hargs =>
        follows_call hargs w.follows_self f.steady_none

theorem sameAt_operandsUnbounded (w : World σ) (d : Nat) :
    ∀ es : List Expr, d + heightOfEach es ≤ Evaluation.limit →
      SameAt d (evalOperandsUnbounded w es) (evalOperands w es)
  | [], _ => by
    rw [evalOperandsUnbounded, evalOperands]
    exact follows_pure rfl
  | e :: rest, hd => by
    rw [heightOfEach] at hd
    rw [evalOperandsUnbounded, evalOperands]
    exact follows_bind_eq (sameAt_unbounded w d e (by omega)) fun _ =>
      follows_bind_eq (sameAt_operandsUnbounded w d rest (by omega)) fun _ => follows_pure rfl

/-- An argument that waits is evaluated at the depth of the call, if it is asked for. -/
theorem sameAt_argumentsUnbounded (w : World σ) (d : Nat) (f : Function) (i : Nat) :
    ∀ es : List Expr, d + heightOfEach es ≤ Evaluation.limit →
      Follows (fun _ => False) (List.Forall₂ (SameArg (fun _ => False) d Eq))
        (Evaluation.At d Eq) (evalArgumentsUnbounded w f i es) (evalArguments w f i es)
  | [], _ => by
    rw [evalArgumentsUnbounded, evalArguments]
    exact follows_pure .nil
  | e :: rest, hd => by
    rw [heightOfEach] at hd
    have he := sameAt_unbounded w d e (by omega)
    rw [evalArgumentsUnbounded_cons, evalArguments_cons]
    exact follows_bind (follows_argument he (f.isLazy i)) fun _ _ ha =>
      follows_map (sameAt_argumentsUnbounded w d f (i + 1) rest (by omega)) fun _ _ has =>
        .cons ha has

end

/-- From the outside, too. -/
theorem resolve_eq_unbounded {e : Expr} (he : e.height ≤ Evaluation.limit) :
    e.resolve w = e.resolveUnbounded w := by
  have hsame : SameAt 0 (e.evalUnbounded w) (e.eval w) := sameAt_unbounded w 0 e (by omega)
  funext s
  exact (congrArg Evaluation.outside (hsame.eq s)).symm

end Expr

end Unbounded

/-! ## Depth -/

/-- An evaluation ends at the depth it began at, whether it succeeds or fails. -/
theorem depth_eval (w : World σ) (e : Expr) (s : Evaluation σ) :
    (after (e.eval w) s).depth = s.depth := by
  have : IsPreorder σ fun _ _ => True :=
    { refl := fun _ => trivial, trans := fun _ _ _ _ _ => trivial }
  have hw : w.Keeps fun _ _ => True :=
    ⟨fun _ _ _ _ _ => trivial, fun _ _ _ _ => trivial, fun _ _ _ _ => trivial,
      fun _ _ _ _ _ _ => trivial, fun _ _ => trivial⟩
  exact (keeps_eval hw e s).1

/-! ## Expressions that are too high -/

/-- The action fails. -/
def Fails {ε τ α : Type} (act : EStateM ε τ α) (s : τ) : Prop := ∃ e t, act s = .error e t

section Fails

variable {ε τ α β : Type} {act : EStateM ε τ α} {s t : τ}

theorem Fails.bind (h : Fails act s) (k : α → EStateM ε τ β) : Fails (act >>= k) s := by
  obtain ⟨e, t, h⟩ := h
  exact ⟨e, t, bind_of_error h⟩

theorem Fails.map (h : Fails act s) (f : α → β) : Fails (f <$> act) s := by
  rw [← bind_pure_comp]
  exact h.bind _

/-- Where the first of two actions does not fail, the second one does. -/
theorem fails_bind {k : α → EStateM ε τ β} (h : ∀ a t, act s = .ok a t → Fails (k a) t) :
    Fails (act >>= k) s := by
  cases hact : act s with
  | ok a t =>
    obtain ⟨e, u, hk⟩ := h a t hact
    exact ⟨e, u, (bind_of_ok hact).trans hk⟩
  | error e t => exact Fails.bind ⟨e, t, hact⟩ k

theorem fails_nested {act : Action (Evaluation σ) α} {s : σ} {d : Nat}
    (h : d < Evaluation.limit → Fails act ⟨s, d + 1⟩) : Fails (nested act) ⟨s, d⟩ := by
  by_cases hd : d < Evaluation.limit
  · obtain ⟨e, t, hact⟩ := h hd
    refine ⟨e, { t with depth := t.depth - 1 }, ?_⟩
    rw [Expr.nested_of_lt hd, hact]
  · exact ⟨.recursionLimit Evaluation.limit, ⟨s, d⟩, if_pos (Nat.not_lt.1 hd)⟩

end Fails

namespace Expr

/-- No function in the expression has a lazy position. -/
def Eager (e : Expr) : Prop := ∀ f ∈ e.functions, f.lazyPositions = []

theorem isLazy_of_nil {f : Function} (h : f.lazyPositions = []) (i : Nat) : f.isLazy i = false := by
  unfold Function.isLazy
  rw [h]
  rfl

theorem depth_of_eval_eq_ok {w : World σ} {e : Expr} {s : σ} {d : Nat} {v : Value}
    {t : Evaluation σ} (h : e.eval w ⟨s, d⟩ = .ok v t) : t = ⟨t.state, d⟩ := by
  have hdepth : (after (e.eval w) ⟨s, d⟩).depth = d := depth_eval w e ⟨s, d⟩
  rw [after_of_ok h] at hdepth
  rw [← hdepth]

mutual

/-- **No room.** Where not all of an expression may be nested and no argument waits, its evaluation
fails. -/
theorem fails_of_high (w : World σ) (d : Nat) : ∀ e : Expr, e.Eager →
    Evaluation.limit < d + e.height → ∀ s, Fails (e.eval w) ⟨s, d⟩
  | leaf v, _, high, s => by
    rw [height] at high
    rw [eval]
    exact fails_nested fun hd => by omega
  | apply op operands, eager, high, s => by
    rw [height] at high
    rw [eval]
    exact fails_nested fun hd =>
      (fails_operands_of_high w (d + 1) hd operands eager (by omega) s).bind _
  | call f arguments, eager, high, s => by
    rw [height] at high
    rw [eval]
    obtain ⟨hf, harguments⟩ := List.forall_mem_cons.1 eager
    exact fails_nested fun hd =>
      (fails_arguments_of_high w (d + 1) hd (isLazy_of_nil hf) 0 arguments harguments
        (by omega) s).bind _

/-- The first operand that is too high fails, if none before it does. -/
theorem fails_operands_of_high (w : World σ) (d : Nat) (room : d ≤ Evaluation.limit) :
    ∀ es : List Expr, (∀ f ∈ functionsOfEach es, f.lazyPositions = []) →
      Evaluation.limit < d + heightOfEach es → ∀ s, Fails (evalOperands w es) ⟨s, d⟩
  | [], _, high, s => absurd high (Nat.not_lt.2 room)
  | e :: rest, eager, high, s => by
    obtain ⟨he, hrest⟩ := List.forall_mem_append.1 eager
    rw [heightOfEach] at high
    rw [evalOperands]
    by_cases hhigh : Evaluation.limit < d + e.height
    · exact (fails_of_high w d e he hhigh s).bind _
    · refine fails_bind fun v t hv => ?_
      rw [depth_of_eval_eq_ok hv]
      exact (fails_operands_of_high w d room rest hrest (by omega) t.state).bind _

theorem fails_arguments_of_high (w : World σ) (d : Nat) (room : d ≤ Evaluation.limit)
    {f : Function} (hf : ∀ i, f.isLazy i = false) (i : Nat) :
    ∀ es : List Expr, (∀ g ∈ functionsOfEach es, g.lazyPositions = []) →
      Evaluation.limit < d + heightOfEach es → ∀ s, Fails (evalArguments w f i es) ⟨s, d⟩
  | [], _, high, s => absurd high (Nat.not_lt.2 room)
  | e :: rest, eager, high, s => by
    obtain ⟨he, hrest⟩ := List.forall_mem_append.1 eager
    rw [heightOfEach] at high
    rw [evalArguments_cons, hf, if_neg Bool.false_ne_true]
    by_cases hhigh : Evaluation.limit < d + e.height
    · exact ((fails_of_high w d e he hhigh s).map _).bind _
    · refine fails_bind fun a t ha => ?_
      obtain ⟨v, -, hv⟩ := map_eq_ok ha
      rw [depth_of_eval_eq_ok hv]
      exact (fails_arguments_of_high w d room hf (i + 1) rest hrest (by omega) t.state).map _

end

end Expr

/-! ## One evaluator for many expressions -/

/-- What came of an action, and the state it left. -/
def answered {ε τ α : Type} : EStateM.Result ε τ α → Except ε α × τ
  | .ok a t => (.ok a, t)
  | .error e t => (.error e, t)

/-- Takes an action for each of some things in turn, whether those before it succeeded or failed. -/
def inTurn {ε τ α β : Type} (act : α → EStateM ε τ β) : List α → τ → List (Except ε β) × τ
  | [], s => ([], s)
  | a :: rest, s =>
    let (first, t) := answered (act a s)
    let (others, u) := inTurn act rest t
    (first :: others, u)

theorem answered_eval (w : World σ) (e : Expr) (s : σ) :
    answered (e.eval w ⟨s, 0⟩) =
      ((answered (e.resolve w s)).1, ⟨(answered (e.resolve w s)).2, 0⟩) := by
  have hdepth : (after (e.eval w) ⟨s, 0⟩).depth = 0 := depth_eval w e ⟨s, 0⟩
  unfold Expr.resolve
  cases h : e.eval w ⟨s, 0⟩ with
  | ok v t =>
    rw [after_of_ok h] at hdepth
    rw [← hdepth]
    rfl
  | error err t =>
    rw [after_of_error h] at hdepth
    rw [← hdepth]
    rfl

/-- **Reuse.** One evaluator gives for expressions in turn what a new one for each of them does. -/
theorem inTurn_eval (w : World σ) (es : List Expr) (s : σ) :
    inTurn (·.eval w) es ⟨s, 0⟩ =
      ((inTurn (·.resolve w) es s).1, ⟨(inTurn (·.resolve w) es s).2, 0⟩) := by
  induction es generalizing s with
  | nil => rfl
  | cons e rest ih =>
    unfold inTurn
    rw [answered_eval]
    dsimp only
    rw [ih]

/-- **The limit of nesting.** In every world:

1. An expression of height 256 at most is evaluated as without the limit: to the same value or fault
   and the same state of the world.
2. A higher one in which no argument waits fails.
3. An evaluation ends at the depth it began at, whether it succeeds or fails.
4. So one evaluator may be used for any number of expressions. It gives the same answers and leaves
   the same state as a new one for each of them. -/
theorem nesting_limit_exact (w : World σ) :
    (∀ e : Expr, e.height ≤ 256 → e.resolve w = e.resolveUnbounded w) ∧
      (∀ e : Expr, 256 < e.height → e.Eager → ∀ s, ∃ err t, e.resolve w s = .error err t) ∧
      (∀ (e : Expr) (s : Evaluation σ), (after (e.eval w) s).depth = s.depth) ∧
      ∀ (es : List Expr) (s : σ), inTurn (·.eval w) es ⟨s, 0⟩ =
        ((inTurn (·.resolve w) es s).1, ⟨(inTurn (·.resolve w) es s).2, 0⟩) := by
  refine ⟨fun e he => Expr.resolve_eq_unbounded he, fun e high eager s => ?_, depth_eval w,
    inTurn_eval w⟩
  have high' : Evaluation.limit < 0 + e.height := by rwa [Nat.zero_add]
  obtain ⟨err, t, h⟩ := Expr.fails_of_high w 0 e eager high' s
  refine ⟨err, t.state, ?_⟩
  unfold Expr.resolve
  rw [h]

/-- An expression in so many calls of a function, one within the other. -/
def Expr.within (f : Function) (e : Expr) : Nat → Expr
  | 0 => e
  | n + 1 => .call f [e.within f n]

theorem Expr.height_within (f : Function) (e : Expr) (n : Nat) :
    (e.within f n).height = n + e.height := by
  induction n with
  | zero => rw [within, Nat.zero_add]
  | succ n ih =>
    rw [within, height, heightOfEach, heightOfEach, Nat.max_zero, ih]
    omega

theorem Expr.Eager.within {f : Function} {e : Expr} (he : e.Eager) (hf : f.lazyPositions = [])
    (n : Nat) : (e.within f n).Eager := by
  induction n with
  | zero => exact he
  | succ n ih =>
    refine List.forall_mem_cons.2 ⟨hf, ?_⟩
    rw [functionsOfEach, functionsOfEach, List.append_nil]
    exact ih

/-- A number in 255 calls of `ABS` is evaluated, and in one more it is refused. -/
theorem nesting_limit_exact_abs :
    let abs : Function := ⟨"ABS", .exactly 1, .magnitude, [], []⟩
    let one : Expr := .leaf (.number 1)
    (one.within abs 255).height ≤ 256 ∧ 256 < (one.within abs 256).height ∧
      (one.within abs 256).Eager ∧
      (one.within abs 255).resolve World.deserted =
        (one.within abs 255).resolveUnbounded World.deserted ∧
      ∃ err t, (one.within abs 256).resolve World.deserted (.ofSeed 0) = .error err t := by
  intro abs one
  have hlow : (one.within abs 255).height ≤ 256 := Nat.le_of_eq (Expr.height_within abs one 255)
  have hhigh : 256 < (one.within abs 256).height := by
    rw [Expr.height_within]
    decide
  have heager : (one.within abs 256).Eager :=
    Expr.Eager.within (e := one) (fun f hf => absurd hf List.not_mem_nil) rfl 256
  obtain ⟨low, high, -, -⟩ := nesting_limit_exact World.deserted
  exact ⟨hlow, hhigh, heager, low _ hlow, high _ hhigh heager (.ofSeed 0)⟩

end Skirmish.Formula
