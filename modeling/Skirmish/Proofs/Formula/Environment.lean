import Skirmish.Proofs.Formula.Simulation
import Skirmish.Proofs.Formula.Substitution

/-!
# Evaluation in an environment

Instead of binding a formula and then evaluating it, the formula can be evaluated as it is, in an
environment that says what its keys mean: other keys, numbers, or the stat of an entity, which is
read when the key is reached.

1. `Expr.evalIn` evaluates an expression in an environment. Where every key means itself, this is
   evaluation (`Expr.evalIn_itself`).
2. `Realizes w f env`: what the substitution `f` puts in place of a key evaluates to what the key
   means in `env`, as long as two more expressions may be nested.
3. `Expr.resolve_substitute`: then an expression that stays below the limit by one evaluates after
   the substitution as it does in the environment.
4. `realizes_roles`, `realizes_amount`, `realizes_stats`: the parts of a binding realize the parts
   of its environment.
-/

namespace Skirmish.Formula

open Evaluation (nested lift ask)

variable {σ : Type}

/-! ## Environments -/

/-- What a key means. -/
inductive Meaning
  | key (name : String)
  | number (x : Float)
  /-- the stat that an entity has when the key is reached -/
  | stat (entity stat : String)

/-- The value of a key of that meaning. -/
def Meaning.value (w : World σ) : Meaning → Action (Evaluation σ) Value
  | key name => Expr.evalLeaf w (.key name)
  | number x => return .number x
  | stat entity name => do return .number (← lift (← ask (w.stat · entity name)))

/-- What keys mean. It may depend on the position of a key that is an argument of a call. -/
abbrev Environment := Option Slot → String → Meaning

namespace Environment

/-- Keys mean themselves, but bare stats are those of `entity`. -/
def stats (hasStat : String → Bool) (entity : String) : Environment := fun slot name =>
  if slot.any Slot.isKey || !hasStat name then .key name else .stat entity name

/-- `$VALUE` means an amount. -/
def withAmount (amount : Float) (env : Environment) : Environment := fun slot name =>
  if name = amountPlaceholder then .number amount else env slot name

/-- `$CASTER` and `$TARGET` mean entities. -/
def withRoles (source target : String) (env : Environment) : Environment := fun slot name =>
  if name = casterPlaceholder then .key source
  else if name = targetPlaceholder then .key target
  else env slot name

/-- The environment of skills, dodges and criticals: bare stats are the caster's. -/
def skill (hasStat : String → String → Bool) (source target : String) : Environment :=
  (stats (hasStat source) source).withRoles source target

/-- The environment of mitigation: bare stats are the defender's. -/
def mitigation (hasStat : String → String → Bool) (target source : String) (amount : Float) :
    Environment :=
  ((stats (hasStat target) target).withAmount amount).withRoles source target

end Environment

namespace Expr

/-- The value at a leaf in an environment. -/
def evalLeafIn (w : World σ) (env : Environment) (slot : Option Slot) :
    Value → Action (Evaluation σ) Value
  | .key name => (env slot name).value w
  | v => evalLeaf w v

mutual

/-- Evaluates an expression in an environment. The slot is the position of an argument of a call,
and none at the root and below an operator. -/
def evalIn (w : World σ) (env : Environment) (slot : Option Slot) :
    Expr → Action (Evaluation σ) Value
  | leaf v => nested (evalLeafIn w env slot v)
  | apply op operands => nested do lift (op.apply (← evalOperandsIn w env operands))
  | call f arguments => nested do f.call w (← evalArgumentsIn w env f 0 arguments)

/-- Evaluates operands in order. -/
def evalOperandsIn (w : World σ) (env : Environment) :
    List Expr → Action (Evaluation σ) (List Value)
  | [] => return []
  | e :: rest => do
    let v ← evalIn w env none e
    return v :: (← evalOperandsIn w env rest)

/-- Evaluates the arguments of a call in order, from position `i` on, and leaves those in lazy
positions for the function. -/
def evalArgumentsIn (w : World σ) (env : Environment) (f : Function) (i : Nat) :
    List Expr → Action (Evaluation σ) (List (Arg σ))
  | [] => return []
  | e :: rest => do
    let a ← if f.isLazy i then pure (Arg.deferred (evalIn w env (some ⟨f, i⟩) e))
      else Arg.value <$> evalIn w env (some ⟨f, i⟩) e
    return a :: (← evalArgumentsIn w env f (i + 1) rest)

end

/-- Evaluates an expression in an environment from the outside. -/
def resolveIn (w : World σ) (env : Environment) (e : Expr) : Action σ Value := fun s =>
  match e.evalIn w env none ⟨s, 0⟩ with
  | .ok v t => .ok v t.state
  | .error err t => .error err t.state

theorem evalArgumentsIn_cons (w : World σ) (env : Environment) (f : Function) (i : Nat) (e : Expr)
    (rest : List Expr) :
    evalArgumentsIn w env f i (e :: rest) =
      (if f.isLazy i then pure (Arg.deferred (e.evalIn w env (some ⟨f, i⟩)))
        else Arg.value <$> e.evalIn w env (some ⟨f, i⟩)) >>= fun a =>
        (a :: ·) <$> evalArgumentsIn w env f (i + 1) rest := by
  rw [evalArgumentsIn]
  by_cases hf : f.isLazy i = true
  · rw [if_pos hf, if_pos hf]; rfl
  · rw [if_neg hf, if_neg hf]; rfl

mutual

/-- Where every key means itself, evaluation in the environment is evaluation. -/
theorem evalIn_itself (w : World σ) (slot : Option Slot) :
    ∀ e : Expr, e.evalIn w (fun _ => .key) slot = e.eval w
  | leaf v => by
    rw [evalIn, eval]
    cases v <;> rfl
  | apply op operands => by rw [evalIn, eval, evalOperandsIn_itself w operands]
  | call f arguments => by rw [evalIn, eval, evalArgumentsIn_itself w f 0 arguments]

theorem evalOperandsIn_itself (w : World σ) :
    ∀ es : List Expr, evalOperandsIn w (fun _ => .key) es = evalOperands w es
  | [] => by rw [evalOperandsIn, evalOperands]
  | e :: rest => by
    rw [evalOperandsIn, evalOperands, evalIn_itself w none e, evalOperandsIn_itself w rest]

theorem evalArgumentsIn_itself (w : World σ) (f : Function) (i : Nat) :
    ∀ es : List Expr, evalArgumentsIn w (fun _ => .key) f i es = evalArguments w f i es
  | [] => by rw [evalArgumentsIn, evalArguments]
  | e :: rest => by
    rw [evalArgumentsIn, evalArguments, evalIn_itself w (some ⟨f, i⟩) e,
      evalArgumentsIn_itself w f (i + 1) rest]

end

/-! ## Height -/

mutual

/-- How many expressions are nested in an expression. A leaf is one. -/
def height : Expr → Nat
  | leaf _ => 1
  | apply _ operands => heightOfEach operands + 1
  | call _ arguments => heightOfEach arguments + 1

/-- The greatest height of some expressions. -/
def heightOfEach : List Expr → Nat
  | [] => 0
  | e :: rest => max e.height (heightOfEach rest)

end

end Expr

/-! ## Evaluations of the same state -/

/-- The end of an evaluation, as it is seen from the outside. -/
def Evaluation.outside :
    EStateM.Result EvalError (Evaluation σ) Value → EStateM.Result EvalError σ Value
  | .ok v t => .ok v t.state
  | .error err t => .error err t.state

/-- At depth `d`, the actions do the same to a state and stay at that depth. -/
abbrev SameAt {α : Type} (d : Nat) (act act' : Action (Evaluation σ) α) : Prop :=
  Follows (fun _ => False) Eq (Evaluation.At d Eq) act act'

section SameAt

variable {α : Type} {d : Nat} {act act' act'' : Action (Evaluation σ) α}

theorem SameAt.eq (h : SameAt d act act') (s : σ) : act ⟨s, d⟩ = act' ⟨s, d⟩ := by
  have hin : Evaluation.At d Eq (⟨s, d⟩ : Evaluation σ) ⟨s, d⟩ := ⟨rfl, rfl, rfl⟩
  have hend := (h _ _ hin).resolve_left fun ⟨_, _, _, he⟩ => he
  exact hend.eq (Evaluation.At.eq fun _ _ => id)

/-- An action that does what the first one does at that depth may stand in its place. -/
theorem SameAt.congr (h : SameAt d act' act'') (hact : ∀ s, act ⟨s, d⟩ = act' ⟨s, d⟩) :
    SameAt d act act'' := by
  rintro ⟨s, n⟩ t hst
  have hn : n = d := hst.left
  subst hn
  rw [hact s]
  exact h _ t hst

/-- A world follows itself on one state. -/
theorem World.follows_self (w : World σ) : World.Follows (fun _ => False) w w Eq := by
  have hself (act : Action σ Unit) : Formula.Follows (fun _ => False) Eq Eq act act := by
    rintro s t rfl
    refine .inr ?_
    cases act s with
    | ok a t => exact .ok rfl rfl
    | error e t => exact .error e rfl
  exact
    { entityExists := fun _ _ h => h ▸ rfl
      players := fun _ _ h => h ▸ rfl
      activePlayers := fun _ _ h => h ▸ rfl
      stat := fun _ _ h => h ▸ rfl
      harm := fun _ _ _ _ => hself _
      heal := fun _ _ _ => hself _
      cast := fun _ _ _ => hself _
      inflict := fun _ _ _ _ _ => hself _
      roll := fun _ _ _ h => by subst h; exact ⟨rfl, rfl⟩ }

theorem sameAt_evalLeaf (w : World σ) (d : Nat) (v : Value) :
    SameAt d (Expr.evalLeaf w v) (Expr.evalLeaf w v) :=
  follows_evalLeaf w.follows_self fun f _ => f.steady_none

end SameAt

/-! ## Substitution -/

/-- To ask for a stat of an entity that is not there is the fault of naming that entity. -/
def World.FaultsAbsent (w : World σ) : Prop :=
  ∀ s entity stat, w.entityExists s entity = false →
    w.stat s entity stat = .error (.unknownEntity entity)

/-- What the substitution puts in place of a key evaluates to what the key means, where two more
expressions may be nested. -/
def Realizes (w : World σ) (f : Option Slot → String → Option Expr) (env : Environment) : Prop :=
  ∀ slot name d, d + 2 ≤ Evaluation.limit →
    SameAt d (((Expr.leaf (.key name)).substitute f slot).eval w) (nested ((env slot name).value w))

namespace Expr

section Substitute

variable {w : World σ} {f : Option Slot → String → Option Expr} {env : Environment}

mutual

/-- **Substitution.** An expression that stays below the limit by one evaluates after a
substitution as it does in the environment. -/
theorem sameAt_substitute (h : Realizes w f env) (slot : Option Slot) (d : Nat) :
    ∀ e : Expr, d + e.height < Evaluation.limit →
      SameAt d ((e.substitute f slot).eval w) (e.evalIn w env slot)
  | leaf v, hd => by
    rw [evalIn]
    cases v with
    | key name => exact h slot name d hd
    | _ =>
      simp only [substitute]
      rw [eval]
      exact follows_nested (sameAt_evalLeaf w (d + 1) _)
  | apply op operands, hd => by
    rw [height] at hd
    rw [substitute, eval, evalIn]
    exact follows_nested <| follows_bind_eq
      (sameAt_substituteOperands h (d + 1) operands (by omega)) fun _ => follows_lift _
  | call g arguments, hd => by
    rw [height] at hd
    rw [substitute, eval, evalIn]
    exact follows_nested <| follows_bind
      (sameAt_substituteArguments h (d + 1) g 0 arguments (by omega)) fun _ _ hargs =>
        follows_call hargs w.follows_self g.steady_none

theorem sameAt_substituteOperands (h : Realizes w f env) (d : Nat) :
    ∀ es : List Expr, d + heightOfEach es < Evaluation.limit →
      SameAt d (evalOperands w (substituteOperands f es)) (evalOperandsIn w env es)
  | [], _ => by
    rw [substituteOperands, evalOperands, evalOperandsIn]
    exact follows_pure rfl
  | e :: rest, hd => by
    rw [heightOfEach] at hd
    rw [substituteOperands, evalOperands, evalOperandsIn]
    exact follows_bind_eq (sameAt_substitute h none d e (by omega)) fun _ =>
      follows_bind_eq (sameAt_substituteOperands h d rest (by omega)) fun _ => follows_pure rfl

theorem sameAt_substituteArguments (h : Realizes w f env) (d : Nat) (g : Function) (i : Nat) :
    ∀ es : List Expr, d + heightOfEach es < Evaluation.limit →
      Follows (fun _ => False) (List.Forall₂ (SameArg (fun _ => False) d Eq))
        (Evaluation.At d Eq) (evalArguments w g i (substituteArguments f g i es))
        (evalArgumentsIn w env g i es)
  | [], _ => by
    rw [substituteArguments, evalArguments, evalArgumentsIn]
    exact follows_pure .nil
  | e :: rest, hd => by
    rw [heightOfEach] at hd
    have he := sameAt_substitute h (some ⟨g, i⟩) d e (by omega)
    rw [substituteArguments, evalArguments_cons, evalArgumentsIn_cons]
    exact follows_bind (follows_argument he (g.isLazy i)) fun _ _ ha =>
      follows_map (sameAt_substituteArguments h d g (i + 1) rest (by omega)) fun _ _ has =>
        .cons ha has

end

/-- Binding an expression and evaluating it comes to the same as evaluating it in the environment
that the binding realizes. -/
theorem resolve_substitute (h : Realizes w f env) {e : Expr} (he : e.height < Evaluation.limit) :
    (e.substitute f none).resolve w = e.resolveIn w env := by
  have hsame : SameAt 0 ((e.substitute f none).eval w) (e.evalIn w env none) :=
    sameAt_substitute h none 0 e (by omega)
  funext s
  exact congrArg Evaluation.outside (hsame.eq s)

/-! ## Parts of a binding -/

theorem realizes_roles {source target : String} (h : Realizes w f env) :
    Realizes w (together (roleBinding source target) f) (env.withRoles source target) := by
  intro slot name d hd
  rw [substitute_key]
  unfold together roleBinding Environment.withRoles
  by_cases hcaster : name = casterPlaceholder
  · rw [if_pos hcaster, if_pos hcaster]
    show SameAt d ((leaf (.key source)).eval w) _
    rw [eval]
    exact follows_nested (sameAt_evalLeaf w (d + 1) (.key source))
  · rw [if_neg hcaster, if_neg hcaster]
    by_cases htarget : name = targetPlaceholder
    · rw [if_pos htarget, if_pos htarget]
      show SameAt d ((leaf (.key target)).eval w) _
      rw [eval]
      exact follows_nested (sameAt_evalLeaf w (d + 1) (.key target))
    · rw [if_neg htarget, if_neg htarget]
      have hname := h slot name d hd
      rwa [substitute_key] at hname

theorem realizes_amount {amount : Float} (h : Realizes w f env) :
    Realizes w (together (amountBinding amount) f) (env.withAmount amount) := by
  intro slot name d hd
  rw [substitute_key]
  unfold together amountBinding Environment.withAmount
  by_cases hname : name = amountPlaceholder
  · rw [if_pos hname, if_pos hname]
    show SameAt d ((leaf (.number amount)).eval w) _
    rw [eval]
    exact follows_nested (sameAt_evalLeaf w (d + 1) (.number amount))
  · rw [if_neg hname, if_neg hname]
    have hname := h slot name d hd
    rwa [substitute_key] at hname

end Substitute

/-! ### Readings -/

/-- What a key evaluates to: the entity of that name, if there is one. -/
def named (w : World σ) (s : σ) (name : String) : Value :=
  if w.entityExists s name then .entity name else .key name

theorem asKey_named (w : World σ) (s : σ) (name : String) :
    (named w s name).asKey = .ok name := by
  unfold named
  split <;> rfl

section Readings

variable {w : World σ} {s : σ} {d : Nat}

theorem nested_of_lt {α : Type} {act : Action (Evaluation σ) α} (hd : d < Evaluation.limit) :
    nested act ⟨s, d⟩ =
      match act ⟨s, d + 1⟩ with
      | .ok a t => .ok a { t with depth := t.depth - 1 }
      | .error e t => .error e { t with depth := t.depth - 1 } := by
  exact if_neg (Nat.not_le.2 hd)

theorem nested_congr {α : Type} {act act' : Action (Evaluation σ) α}
    (h : act ⟨s, d + 1⟩ = act' ⟨s, d + 1⟩) : nested act ⟨s, d⟩ = nested act' ⟨s, d⟩ := by
  unfold nested
  dsimp only
  rw [h]

theorem eval_key (hd : d < Evaluation.limit) (name : String) :
    (leaf (.key name)).eval w ⟨s, d⟩ = .ok (named w s name) ⟨s, d⟩ := by
  have hleaf : evalLeaf w (.key name) ⟨s, d + 1⟩ = .ok (named w s name) ⟨s, d + 1⟩ := by
    show (if w.entityExists s name = true then (_ : Action (Evaluation σ) Value) else _) _ = _
    unfold named
    split <;> rfl
  rw [eval, nested_of_lt hd, hleaf]
  rfl

theorem value_stat (entity stat : String) :
    (Meaning.stat entity stat).value w ⟨s, d⟩ =
      match w.stat s entity stat with
      | .ok x => .ok (.number x) ⟨s, d⟩
      | .error e => .error e ⟨s, d⟩ := by
  show (lift (w.stat s entity stat) >>= fun x => pure (Value.number x) :
    Action (Evaluation σ) Value) ⟨s, d⟩ = _
  cases w.stat s entity stat <;> rfl

/-- Where no argument waits, keys are evaluated one by one. -/
theorem evalArguments_keys (hd : d < Evaluation.limit) {f : Function}
    (eager : ∀ i, f.isLazy i = false) (i : Nat) (names : List String) :
    evalArguments w f i (names.map fun name => leaf (.key name)) ⟨s, d⟩ =
      .ok (names.map fun name => .value (named w s name)) ⟨s, d⟩ := by
  induction names generalizing i with
  | nil =>
    rw [List.map_nil, evalArguments]
    rfl
  | cons name rest ih =>
    have hargument : (Arg.value <$> (leaf (.key name)).eval w : Action (Evaluation σ) (Arg σ))
        ⟨s, d⟩ = .ok (.value (named w s name)) ⟨s, d⟩ := by
      show EStateM.map Arg.value _ _ = _
      unfold EStateM.map
      rw [eval_key hd]
    rw [List.map_cons, evalArguments_cons, eager, if_neg Bool.false_ne_true, bind_of_ok hargument]
    show EStateM.map _ _ _ = _
    unfold EStateM.map
    rw [ih]
    rfl

/-- So the function is called with what they evaluate to. -/
theorem eval_call_keys (hd : d + 1 < Evaluation.limit) {f : Function}
    (eager : ∀ i, f.isLazy i = false) (names : List String) :
    (call f (names.map fun name => leaf (.key name))).eval w ⟨s, d⟩ =
      nested (f.call w (names.map fun name => .value (named w s name))) ⟨s, d⟩ := by
  rw [eval]
  exact nested_congr (bind_of_ok (evalArguments_keys hd eager 0 names))

/-- A reading of a stat evaluates to the stat. That the entity is not there is the same fault either
way. -/
theorem eval_reading (absent : w.FaultsAbsent)
    (hd : d + 2 ≤ Evaluation.limit) (entity stat : String) :
    (call ⟨"GET_PROP", .exactly 2, .stat, [], [1]⟩
        [leaf (.key entity), leaf (.key stat)]).eval w ⟨s, d⟩ =
      nested ((Meaning.stat entity stat).value w) ⟨s, d⟩ := by
  have hcall : Function.call w ⟨"GET_PROP", .exactly 2, .stat, [], [1]⟩
      [.value (named w s entity), .value (named w s stat)] ⟨s, d + 1⟩ =
        (Meaning.stat entity stat).value w ⟨s, d + 1⟩ := by
    show (lift (named w s entity).asEntity >>= fun entity => lift (named w s stat).asKey >>=
      fun stat => (Meaning.stat entity stat).value w) ⟨s, d + 1⟩ = _
    rw [asKey_named]
    unfold named
    cases h : w.entityExists s entity with
    | true => rfl
    | false =>
      rw [value_stat, absent s entity stat h]
      rfl
  have eager (i : Nat) : Function.isLazy ⟨"GET_PROP", .exactly 2, .stat, [], [1]⟩ i = false := rfl
  exact (eval_call_keys (by omega) eager [entity, stat]).trans (nested_congr hcall)

theorem realizes_stats (absent : w.FaultsAbsent) (hasStat : String → Bool)
    (entity : String) : Realizes w (statBinding hasStat entity) (.stats hasStat entity) := by
  intro slot name d hd
  rw [substitute_key]
  unfold statBinding Environment.stats
  split
  · show SameAt d ((leaf (.key name)).eval w) _
    rw [eval]
    exact follows_nested (sameAt_evalLeaf w (d + 1) (.key name))
  · refine SameAt.congr (follows_nested ?_) fun s => eval_reading absent hd entity name
    exact follows_bind_eq (follows_ask fun _ _ h => h ▸ rfl) fun _ =>
      follows_bind_eq (follows_lift _) fun _ => follows_pure rfl

end Readings

/-! ## Bindings for each use -/

section Uses

variable {w : World σ} {hasStat : String → String → Bool} {source target : String} {e : Expr}

theorem not_captured {taken : Option Slot → String → Prop} (hs : ∀ slot, ¬taken slot source)
    (ht : ∀ slot, ¬taken slot target) (e : Expr) : ¬e.Captured taken source target := by
  rintro ⟨slot, ⟨-, h⟩ | ⟨-, h⟩⟩
  · exact hs slot h
  · exact ht slot h

theorem statBinding_eq_none {bound : String → Bool} {entity name : String}
    (h : bound name = false) (slot : Option Slot) : statBinding bound entity slot name = none := by
  unfold statBinding
  rw [h, Bool.not_false, Bool.or_true, if_pos rfl]

/-- A skill formula is evaluated as it is bound. -/
theorem resolve_bindSkill (absent : w.FaultsAbsent)
    (hs : hasStat source source = false) (ht : hasStat source target = false)
    (he : e.height < Evaluation.limit) :
    (e.bindSkill .standard hasStat source target).resolve w =
      e.resolveIn w (.skill hasStat source target) := by
  have hbind : e.bindSkill .standard hasStat source target = e.substitute
      (together (roleBinding source target) (statBinding (hasStat source) source)) none := by
    rw [bindSkill, bindStats_eq]
    refine (binding_eq_together_iff (statBinding_proper _) e).2 (not_captured ?_ ?_ e)
    · exact fun slot h => h (statBinding_eq_none hs slot)
    · exact fun slot h => h (statBinding_eq_none ht slot)
  rw [hbind]
  exact resolve_substitute (realizes_roles (realizes_stats absent _ _)) he

/-- A mitigation formula is evaluated as it is bound. -/
theorem resolve_bindMitigation (absent : w.FaultsAbsent) {amount : Float}
    (hs : hasStat target source = false) (ht : hasStat target target = false)
    (hsource : source ≠ amountPlaceholder) (htarget : target ≠ amountPlaceholder)
    (he : e.height < Evaluation.limit) :
    (e.bindMitigation .standard hasStat target source amount).resolve w =
      e.resolveIn w (.mitigation hasStat target source amount) := by
  have hlater {name : String} (hname : name ≠ amountPlaceholder) (h : hasStat target name = false)
      (slot : Option Slot) :
      together (amountBinding amount) (statBinding (hasStat target) target) slot name = none := by
    unfold together amountBinding
    rw [if_neg hname]
    exact statBinding_eq_none h slot
  have hbind : e.bindMitigation .standard hasStat target source amount = e.substitute
      (together (roleBinding source target)
        (together (amountBinding amount) (statBinding (hasStat target) target))) none := by
    rw [bindMitigation, bindAmount_bindStats]
    refine (binding_eq_together_iff
      (together_proper (amountBinding_proper _) (statBinding_proper _)) e).2 (not_captured ?_ ?_ e)
    · exact fun slot h => h (hlater hsource hs slot)
    · exact fun slot h => h (hlater htarget ht slot)
  rw [hbind]
  exact resolve_substitute (realizes_roles (realizes_amount (realizes_stats absent _ _))) he

end Uses

end Expr

end Skirmish.Formula
