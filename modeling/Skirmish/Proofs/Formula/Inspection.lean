import Skirmish.Proofs.Formula.Environment

/-!
# Inspected evaluations

An inspection is handed every subexpression of an expression together with its evaluation, whenever
it is to be evaluated, and takes the evaluation over.

1. `Expr.resolveUnder` evaluates under an inspection.
2. `follows_evalUnder`: an inspection that changes nothing about the evaluation of any expression
   changes nothing about an evaluation that it inspects.
3. `numbersOnly`: an alarm that goes off when one of certain expressions has a value that is no
   number, or fails otherwise than at the limit of nesting.
4. `Expr.numeric_reading`: a reading of a stat that is there sets off no such alarm.
-/

namespace Skirmish.Formula

open Evaluation (nested lift)

variable {σ : Type}

/-! ## Inspections -/

/-- Takes over the evaluation of an expression. -/
abbrev Inspection (σ : Type) := Expr → Action (Evaluation σ) Value → Action (Evaluation σ) Value

namespace Expr

mutual

/-- Evaluates an expression under an inspection. -/
def evalUnder (inspect : Inspection σ) (w : World σ) : Expr → Action (Evaluation σ) Value
  | leaf v => inspect (leaf v) (nested (evalLeaf w v))
  | apply op operands => inspect (apply op operands) <| nested do
      lift (op.apply (← evalOperandsUnder inspect w operands))
  | call f arguments => inspect (call f arguments) <| nested do
      f.call w (← evalArgumentsUnder inspect w f 0 arguments)

/-- Evaluates operands in order. -/
def evalOperandsUnder (inspect : Inspection σ) (w : World σ) :
    List Expr → Action (Evaluation σ) (List Value)
  | [] => return []
  | e :: rest => do
    let v ← evalUnder inspect w e
    return v :: (← evalOperandsUnder inspect w rest)

/-- Evaluates the arguments of a call in order, from position `i` on, and leaves those in lazy
positions for the function. They will be inspected when the function wants their values. -/
def evalArgumentsUnder (inspect : Inspection σ) (w : World σ) (f : Function) (i : Nat) :
    List Expr → Action (Evaluation σ) (List (Arg σ))
  | [] => return []
  | e :: rest => do
    let a ← if f.isLazy i then pure (Arg.deferred (evalUnder inspect w e))
      else Arg.value <$> evalUnder inspect w e
    return a :: (← evalArgumentsUnder inspect w f (i + 1) rest)

end

/-- Evaluates an expression under an inspection, from the outside. -/
def resolveUnder (inspect : Inspection σ) (w : World σ) (e : Expr) : Action σ Value := fun s =>
  match e.evalUnder inspect w ⟨s, 0⟩ with
  | .ok v t => .ok v t.state
  | .error err t => .error err t.state

theorem evalArgumentsUnder_cons (inspect : Inspection σ) (w : World σ) (f : Function) (i : Nat)
    (e : Expr) (rest : List Expr) :
    evalArgumentsUnder inspect w f i (e :: rest) =
      (if f.isLazy i then pure (Arg.deferred (e.evalUnder inspect w))
        else Arg.value <$> e.evalUnder inspect w) >>= fun a =>
        (a :: ·) <$> evalArgumentsUnder inspect w f (i + 1) rest := by
  rw [evalArgumentsUnder]
  by_cases hf : f.isLazy i = true
  · rw [if_pos hf, if_pos hf]; rfl
  · rw [if_neg hf, if_neg hf]; rfl

end Expr

/-! ## Inspections that change nothing -/

/-- The same state, which satisfies `I`. -/
def Both (I : σ → Prop) (s t : σ) : Prop := s = t ∧ I s

theorem SameEnd.eq_of_both {I : σ → Prop} {d : Nat} {α : Type}
    {x y : EStateM.Result EvalError (Evaluation σ) α}
    (h : SameEnd Eq (Evaluation.At d (Both I)) x y) : x = y :=
  h.eq (Evaluation.At.eq fun _ _ => And.left)

/-- Where `I` holds, an inspection of what does the same as the evaluation of an expression does the
same. -/
def Inspection.Discreet (I : σ → Prop) (w : World σ) (inspect : Inspection σ) : Prop :=
  ∀ d e act, Follows (fun _ => False) Eq (Evaluation.At d (Both I)) act (e.eval w) →
    Follows (fun _ => False) Eq (Evaluation.At d (Both I)) (inspect e act) (e.eval w)

section Discreet

variable {I : σ → Prop} {w : World σ} {inspect : Inspection σ}

/-- A world whose actions keep to `I` does the same as itself where it holds. -/
theorem World.follows_both (hw : w.Keeps fun s t => I s → I t) :
    World.Follows (fun _ => False) w w (Both I) := by
  have hself {act : Action σ Unit} (hact : Formula.Keeps (fun s t => I s → I t) act) :
      Formula.Follows (fun _ => False) Eq (Both I) act act := by
    rintro s t ⟨rfl, hs⟩
    have hafter := hact s hs
    refine .inr ?_
    cases hr : act s with
    | ok a t =>
      rw [after_of_ok hr] at hafter
      exact .ok rfl ⟨rfl, hafter⟩
    | error e t =>
      rw [after_of_error hr] at hafter
      exact .error e ⟨rfl, hafter⟩
  exact
    { entityExists := fun _ _ h => h.1 ▸ rfl
      players := fun _ _ h => h.1 ▸ rfl
      activePlayers := fun _ _ h => h.1 ▸ rfl
      stat := fun _ _ h => h.1 ▸ rfl
      harm := fun _ _ _ _ => hself (hw.harm _ _ _ _)
      heal := fun _ _ _ => hself (hw.heal _ _ _)
      cast := fun _ _ _ => hself (hw.cast _ _ _)
      inflict := fun _ _ _ _ _ => hself (hw.inflict _ _ _ _ _)
      roll := by
        rintro upper s t ⟨rfl, hs⟩
        exact ⟨rfl, rfl, hw.roll upper s hs⟩ }

mutual

/-- **Inspection.** Under a discreet inspection an evaluation does the same. -/
theorem follows_evalUnder (hinspect : inspect.Discreet I w)
    (hw : World.Follows (fun _ => False) w w (Both I)) (d : Nat) : ∀ e : Expr,
    Follows (fun _ => False) Eq (Evaluation.At d (Both I)) (e.evalUnder inspect w) (e.eval w)
  | .leaf v => by
    rw [Expr.evalUnder]
    refine hinspect d (.leaf v) _ ?_
    rw [Expr.eval]
    exact follows_nested (follows_evalLeaf hw fun f _ => f.steady_none)
  | .apply op operands => by
    rw [Expr.evalUnder]
    refine hinspect d (.apply op operands) _ ?_
    rw [Expr.eval]
    exact follows_nested (follows_bind_eq (follows_evalOperandsUnder hinspect hw (d + 1) operands)
      fun _ => follows_lift _)
  | .call f arguments => by
    rw [Expr.evalUnder]
    refine hinspect d (.call f arguments) _ ?_
    rw [Expr.eval]
    exact follows_nested (follows_bind
      (follows_evalArgumentsUnder hinspect hw (d + 1) f 0 arguments) fun _ _ hargs =>
        follows_call hargs hw f.steady_none)

theorem follows_evalOperandsUnder (hinspect : inspect.Discreet I w)
    (hw : World.Follows (fun _ => False) w w (Both I)) (d : Nat) : ∀ es : List Expr,
    Follows (fun _ => False) Eq (Evaluation.At d (Both I)) (Expr.evalOperandsUnder inspect w es)
      (Expr.evalOperands w es)
  | [] => by
    rw [Expr.evalOperandsUnder, Expr.evalOperands]
    exact follows_pure rfl
  | e :: rest => by
    rw [Expr.evalOperandsUnder, Expr.evalOperands]
    exact follows_bind_eq (follows_evalUnder hinspect hw d e) fun _ =>
      follows_bind_eq (follows_evalOperandsUnder hinspect hw d rest) fun _ => follows_pure rfl

theorem follows_evalArgumentsUnder (hinspect : inspect.Discreet I w)
    (hw : World.Follows (fun _ => False) w w (Both I)) (d : Nat) (f : Function) (i : Nat) :
    ∀ es : List Expr, Follows (fun _ => False)
      (List.Forall₂ (SameArg (fun _ => False) d (Both I))) (Evaluation.At d (Both I))
      (Expr.evalArgumentsUnder inspect w f i es) (Expr.evalArguments w f i es)
  | [] => by
    rw [Expr.evalArgumentsUnder, Expr.evalArguments]
    exact follows_pure .nil
  | e :: rest => by
    rw [Expr.evalArgumentsUnder_cons, evalArguments_cons]
    exact follows_bind (follows_argument (follows_evalUnder hinspect hw d e) (f.isLazy i))
      fun _ _ ha => follows_map (follows_evalArgumentsUnder hinspect hw d f (i + 1) rest)
        fun _ _ has => .cons ha has

end

theorem resolveUnder_eq (hinspect : inspect.Discreet I w)
    (hw : World.Follows (fun _ => False) w w (Both I)) (e : Expr) {s : σ} (hs : I s) :
    e.resolveUnder inspect w s = e.resolve w s := by
  have hin : Evaluation.At 0 (Both I) (⟨s, 0⟩ : Evaluation σ) ⟨s, 0⟩ := ⟨rfl, rfl, rfl, hs⟩
  have hend := (follows_evalUnder hinspect hw 0 e _ _ hin).resolve_left fun ⟨_, _, _, he⟩ => he
  exact congrArg Evaluation.outside hend.eq_of_both

/-- An inspection that lets every evaluation be leaves evaluation as it is. -/
theorem resolveUnder_leave (w : World σ) (e : Expr) (s : σ) :
    e.resolveUnder (fun _ act => act) w s = e.resolve w s := by
  have hw : w.Keeps fun s t => True → True :=
    ⟨fun _ _ _ _ _ => id, fun _ _ _ _ => id, fun _ _ _ _ => id, fun _ _ _ _ _ _ => id,
      fun _ _ => id⟩
  exact resolveUnder_eq (fun _ _ _ h => h) (World.follows_both hw) e trivial

end Discreet

/-! ## Alarms -/

/-- A number, or the fault of nesting too deep. -/
def Numeric : EStateM.Result EvalError (Evaluation σ) Value → Prop
  | .ok (.number _) _ | .error (.recursionLimit _) _ => True
  | _ => False

/-- Lets the evaluation of an expression that satisfies `p` give a number or be refused at the limit
of nesting. With any other value or fault the alarm goes off. -/
def numbersOnly (p : Expr → Bool)
    (alarm : Evaluation σ → EStateM.Result EvalError (Evaluation σ) Value) : Inspection σ :=
  fun e act s =>
    if p e then
      match act s with
      | .ok (.number x) t => .ok (.number x) t
      | .error (.recursionLimit n) t => .error (.recursionLimit n) t
      | _ => alarm s
    else act s

section Alarms

variable {I : σ → Prop} {w : World σ} {p : Expr → Bool}
  {alarm : Evaluation σ → EStateM.Result EvalError (Evaluation σ) Value}

theorem numbersOnly_of_numeric {e : Expr} {act : Action (Evaluation σ) Value} {s : Evaluation σ}
    (h : p e = true → Numeric (act s)) : numbersOnly p alarm e act s = act s := by
  unfold numbersOnly
  split
  · next hp =>
    have hnumeric := h hp
    split
    · next heq => exact heq.symm
    · next heq => exact heq.symm
    · next hvalue hfault =>
      revert hnumeric
      unfold Numeric
      split
      · next x t heq => exact absurd heq (hvalue x t)
      · next n t heq => exact absurd heq (hfault n t)
      · exact False.elim
  · rfl

/-- Where the expressions that are watched have numbers as values, or are nested too deep, the alarm
never goes off. -/
theorem discreet_numbersOnly
    (h : ∀ e, p e = true → ∀ s d, I s → Numeric (e.eval w ⟨s, d⟩)) :
    (numbersOnly p alarm).Discreet I w := by
  intro d e act hact s t hst
  have hend := (hact s t hst).resolve_left fun ⟨_, _, _, he⟩ => he
  have hnumeric : p e = true → Numeric (act s) := fun hp => by
    rw [hend.eq_of_both]
    exact h e hp t.state t.depth (hst.state.1 ▸ hst.state.2)
  rw [numbersOnly_of_numeric hnumeric]
  exact .inr hend

end Alarms

/-! ## Readings -/

namespace Expr

/-- The reading of a stat. -/
def reading (entity stat : String) : Expr :=
  call ⟨"GET_PROP", .exactly 2, .stat, [], [1]⟩ [leaf (.key entity), leaf (.key stat)]

/-- Whether it is a reading of one of some stats of an entity, by a function that a vocabulary
has for readings. -/
def isReading (v : Vocabulary) (bound : String → Bool) (entity : String) : Expr → Bool
  | call f [leaf (.key name), leaf (.key stat)] =>
    v.function? Vocabulary.statName = some f && name = entity && bound stat
  | _ => false

theorem eq_reading_of_isReading {v : Vocabulary} {bound : String → Bool} {entity : String}
    {e : Expr} (standard : v.function? Vocabulary.statName =
      Vocabulary.standard.function? Vocabulary.statName)
    (h : e.isReading v bound entity = true) :
    ∃ stat, bound stat = true ∧ e = reading entity stat := by
  unfold isReading at h
  split at h
  · next f name stat =>
    simp only [Bool.and_eq_true, decide_eq_true_eq] at h
    obtain ⟨⟨hf, rfl⟩, hstat⟩ := h
    rw [standard] at hf
    cases hf
    exact ⟨stat, hstat, rfl⟩
  · cases h

theorem eval_refused {w : World σ} {s : σ} {d : Nat} (hd : Evaluation.limit ≤ d) (v : Value) :
    (leaf v).eval w ⟨s, d⟩ = .error (.recursionLimit Evaluation.limit) ⟨s, d⟩ := by
  rw [eval]
  unfold nested
  rw [if_pos hd]

/-- Arguments that are not lazy are refused at the limit. -/
theorem evalArguments_refused {w : World σ} {s : σ} {d : Nat} (hd : Evaluation.limit ≤ d)
    {f : Function} (eager : f.isLazy 0 = false) (v : Value) (rest : List Expr) :
    evalArguments w f 0 (leaf v :: rest) ⟨s, d⟩ =
      .error (.recursionLimit Evaluation.limit) ⟨s, d⟩ := by
  rw [evalArguments_cons, eager, if_neg Bool.false_ne_true]
  refine bind_of_error ?_
  show EStateM.map Arg.value _ _ = _
  unfold EStateM.map
  rw [eval_refused hd]

/-- **Readings.** A reading of a stat that is there gives a number, however deep it is nested, or is
nested too deep. -/
theorem numeric_reading {w : World σ} (absent : w.FaultsAbsent) {s : σ} {entity stat : String}
    {x : Float} (there : w.stat s entity stat = .ok x) (d : Nat) :
    Numeric ((reading entity stat).eval w ⟨s, d⟩) := by
  by_cases hd : d + 2 ≤ Evaluation.limit
  · unfold reading
    rw [eval_reading absent hd, nested_of_lt (by omega), value_stat, there]
    trivial
  · -- Where there is room for the call at most, its arguments are refused.
    by_cases hlast : d < Evaluation.limit
    · unfold reading
      rw [eval, nested_of_lt hlast, bind_of_error (evalArguments_refused (by omega) rfl _ _)]
      trivial
    · unfold reading
      rw [eval]
      unfold nested
      rw [if_pos (Nat.not_lt.1 hlast)]
      trivial

end Expr

end Skirmish.Formula
