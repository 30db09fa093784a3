import Skirmish.Proofs.Formula.Functions
import Skirmish.Proofs.Formula.Substitution

/-!
# Quiet expressions

Some functions act on the world: they harm, heal, cast or apply. An expression that calls none of
them is quiet. It only asks the world and rolls.

1. `Quiet.resolve_acting`: so its evaluation is the same in every world that answers and rolls in
   the same way, whatever its actions are.
2. This still holds when it is bound to an entity whose stats it reads, whatever function the
   vocabulary reads them with (`Quiet.passive_bindSkill`, `Quiet.passive_bindMitigation`). A function
   that acts takes three arguments or more, and a reading gives it two.
3. `Passive.keeps`: it does to a state nothing but what rolls do.
-/

namespace Skirmish.Formula

variable {σ : Type}

/-- Whether functions of this rule act on the world. -/
def FunctionRule.acts : FunctionRule → Bool
  | harm | heal | cast | inflict => true
  | _ => false

/-- No function in the expression acts on the world. -/
def Expr.Quiet (e : Expr) : Prop := ∀ f ∈ e.functions, f.rule.acts = false

/-- The actions of another world, with the answers and the rolls of this one. -/
def World.acting (w actions : World σ) : World σ :=
  { w with
    harm := actions.harm
    heal := actions.heal
    cast := actions.cast
    inflict := actions.inflict }

section Functions

variable (w actions : World σ)

theorem eager_of_few {f : Function} {args : List (Arg σ)} {i : Nat} (h : args.length ≤ i) :
    f.eager args i = .error (.arity f.name args.length) := by
  unfold Function.eager
  rw [List.getElem?_eq_none h]
  rfl

/-- A function acts on the world only with three arguments or more. -/
theorem run_acting {f : Function} {args : List (Arg σ)}
    (h : f.rule.acts = false ∨ args.length < 3) :
    f.run (w.acting actions) args = f.run w args := by
  unfold Function.run
  cases hrule : f.rule with
  | harm | heal | cast | inflict =>
    rcases h with h | few
    · rw [hrule] at h
      cases h
    · dsimp only
      simp only [eager_of_few (f := f) (Nat.lt_succ_iff.1 few)]
      rfl
  | _ => rfl

theorem call_acting {f : Function} {args : List (Arg σ)}
    (h : f.rule.acts = false ∨ args.length < 3) :
    f.call (w.acting actions) args = f.call w args := by
  unfold Function.call
  rw [run_acting w actions h]

theorem evalLeaf_acting (v : Value) :
    Expr.evalLeaf (w.acting actions) v = Expr.evalLeaf w v := by
  cases v with
  | function f => exact call_acting w actions (.inr (Nat.succ_pos 2))
  | _ => rfl

end Functions

/-! ## Passive expressions -/

namespace Expr

/-- The actions of a world make no difference to evaluations of the expression. -/
def Passive (e : Expr) : Prop :=
  ∀ (σ : Type) (w actions : World σ), e.eval (w.acting actions) = e.eval w

theorem passive_leaf (v : Value) : (leaf v).Passive := fun _ w actions => by
  rw [eval, eval, evalLeaf_acting]

theorem length_of_evalArguments {w : World σ} {f : Function} {i : Nat} {es : List Expr}
    {s t : Evaluation σ} {args : List (Arg σ)} (h : evalArguments w f i es s = .ok args t) :
    args.length = es.length := by
  induction es generalizing i s args with
  | nil =>
    rw [evalArguments] at h
    cases h
    rfl
  | cons e rest ih =>
    rw [evalArguments_cons] at h
    obtain ⟨a, u, -, h⟩ := bind_eq_ok h
    obtain ⟨as, rfl, has⟩ := map_eq_ok h
    exact congrArg (· + 1) (ih has)

theorem eval_call_acting {w actions : World σ} {f : Function} {arguments : List Expr}
    (h : f.rule.acts = false ∨ arguments.length < 3)
    (harguments : evalArguments (w.acting actions) f 0 arguments = evalArguments w f 0 arguments) :
    (call f arguments).eval (w.acting actions) = (call f arguments).eval w := by
  rw [eval, eval, harguments]
  congr 1
  funext s
  cases hargs : evalArguments w f 0 arguments s with
  | error err t => rw [bind_of_error hargs, bind_of_error hargs]
  | ok args t =>
    rw [bind_of_ok hargs, bind_of_ok hargs,
      call_acting w actions (h.imp_right fun few => length_of_evalArguments hargs ▸ few)]

/-- A reading of a stat is passive, whatever it is read with. -/
theorem passive_reading (read : Function) (entity stat : String) :
    (call read [leaf (.key entity), leaf (.key stat)]).Passive := fun _ w actions => by
  refine eval_call_acting (.inr (Nat.lt_succ_self 2)) ?_
  simp only [evalArguments, passive_leaf _ _ w actions]

section Substitutions

variable {f : Option Slot → String → Option Expr} (w actions : World σ)

mutual

/-- **Evaluation.** Quiet expressions are evaluated without the actions of the world, also after a
substitution that puts in nothing but passive expressions. -/
theorem eval_acting (hf : ∀ slot name x, f slot name = some x → x.Passive) (slot : Option Slot) :
    ∀ e : Expr, e.Quiet →
      (e.substitute f slot).eval (w.acting actions) = (e.substitute f slot).eval w
  | leaf v, _ => by
    cases v with
    | key name =>
      rw [substitute]
      cases hx : f slot name with
      | none => exact passive_leaf _ _ w actions
      | some x => exact hf slot name x hx _ w actions
    | _ => simpa only [substitute] using passive_leaf _ _ w actions
  | apply op operands, h => by rw [substitute, eval, eval, evalOperands_acting hf operands h]
  | call g arguments, h => by
    obtain ⟨hg, harguments⟩ := List.forall_mem_cons.1 h
    rw [substitute]
    exact eval_call_acting (.inl hg) (evalArguments_acting hf g g 0 arguments harguments)

theorem evalOperands_acting (hf : ∀ slot name x, f slot name = some x → x.Passive) :
    ∀ es : List Expr, (∀ g ∈ functionsOfEach es, g.rule.acts = false) →
      evalOperands (w.acting actions) (substituteOperands f es) =
        evalOperands w (substituteOperands f es)
  | [], _ => by rw [substituteOperands, evalOperands, evalOperands]
  | e :: rest, h => by
    obtain ⟨he, hrest⟩ := List.forall_mem_append.1 h
    rw [substituteOperands, evalOperands, evalOperands, eval_acting hf none e he,
      evalOperands_acting hf rest hrest]

theorem evalArguments_acting (hf : ∀ slot name x, f slot name = some x → x.Passive)
    (g h : Function) (i : Nat) :
    ∀ es : List Expr, (∀ k ∈ functionsOfEach es, k.rule.acts = false) →
      evalArguments (w.acting actions) g i (substituteArguments f h i es) =
        evalArguments w g i (substituteArguments f h i es)
  | [], _ => by rw [substituteArguments, evalArguments, evalArguments]
  | e :: rest, hes => by
    obtain ⟨he, hrest⟩ := List.forall_mem_append.1 hes
    rw [substituteArguments, evalArguments_cons, evalArguments_cons,
      eval_acting hf (some ⟨h, i⟩) e he, evalArguments_acting hf g h (i + 1) rest hrest]

end

end Substitutions

theorem Quiet.passive {e : Expr} (h : e.Quiet) : e.Passive := fun _ w actions => by
  have heval := eval_acting w actions (f := fun _ _ => none) (fun _ _ _ hx => nomatch hx) none e h
  rwa [substitute_none] at heval

section Outside

variable {w actions : World σ} {e : Expr}

theorem Passive.resolve_acting (h : e.Passive) : e.resolve (w.acting actions) = e.resolve w := by
  unfold resolve
  rw [h σ w actions]

/-- A passive expression does to a state nothing but what rolls do. -/
theorem Passive.keeps {R : σ → σ → Prop} [IsPreorder σ R] (h : e.Passive)
    (hroll : ∀ upper s, R s (w.roll upper s).2) : Keeps R (e.resolve w) := by
  let idle : World σ :=
    { w with
      harm := fun _ _ _ _ => pure ()
      heal := fun _ _ _ => pure ()
      cast := fun _ _ _ => pure ()
      inflict := fun _ _ _ _ _ => pure () }
  have hkeeps : (w.acting idle).Keeps R :=
    ⟨fun _ _ _ _ => keeps_pure _, fun _ _ _ => keeps_pure _, fun _ _ _ => keeps_pure _,
      fun _ _ _ _ _ => keeps_pure _, hroll⟩
  have hidle : e.resolve (w.acting idle) = e.resolve w := h.resolve_acting
  rw [← hidle]
  exact keeps_resolve hkeeps e

/-- From the outside, the actions of the world make no difference to a quiet expression. -/
theorem Quiet.resolve_acting (h : e.Quiet) : e.resolve (w.acting actions) = e.resolve w :=
  Passive.resolve_acting h.passive

/-! ## Bindings -/

/-- A binding leaves an expression quiet. -/
theorem Quiet.of_bindStatus {e x : Expr} {source target : String} {values : List Float}
    (h : e.Quiet) (hx : e.bindStatus source target values = .ok x) : x.Quiet :=
  forall_functions_bindStatus hx h

theorem Quiet.passive_bindStats (h : e.Quiet) (v : Vocabulary) (hasStat : String → Bool)
    (entity : String) : (e.bindStats v hasStat entity).Passive := by
  unfold bindStats
  split
  · exact h.passive
  · intro σ w actions
    refine eval_acting w actions (fun slot name x hx => ?_) none e h
    split at hx
    · cases hx
    · cases hx
      exact passive_reading _ entity name

theorem Quiet.passive_bindSkill (h : e.Quiet) (v : Vocabulary)
    (hasStat : String → String → Bool) (source target : String) :
    (e.bindSkill v hasStat source target).Passive :=
  Quiet.passive_bindStats (forall_functions_bindRoles source target h) v (hasStat source) source

theorem Quiet.passive_bindMitigation (h : e.Quiet) (v : Vocabulary)
    (hasStat : String → String → Bool) (target source : String) (amount : Float) :
    (e.bindMitigation v hasStat target source amount).Passive :=
  Quiet.passive_bindStats
    (forall_functions_bindAmount amount (forall_functions_bindRoles source target h)) v
    (hasStat target) target

end Outside

end Expr

end Skirmish.Formula
