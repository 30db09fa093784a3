import Skirmish.Proofs.Formula.Functions
import Skirmish.Proofs.Formula.Yielding

/-!
# Saturated expressions

An expression is saturated if every operator and function in it has as many operands or arguments as
it takes. The number of arguments never goes wrong in such an expression.

1. `saturated_of_parse`: what is read is saturated.
2. `answers_bindAll`: so it is after any bindings, one after another.
3. `yields_eval`: a saturated expression gives inert values and faults other than a wrong number of
   arguments, as far as the world does.
-/

namespace Skirmish.Formula

/-! ## Sound vocabularies -/

/-- The number of operands that a rule computes its value on. -/
def OperatorRule.operands : OperatorRule → Nat
  | complement | opposite => 1
  | _ => 2

/-- A function that accepts some number of arguments has its rule read no others and none that
waits. -/
def Function.Sound (f : Function) : Prop :=
  ∀ count, f.arity.accepts count = true →
    (∀ i ∈ f.rule.reads count, i < count ∧ f.isLazy i = false) ∧
      (f.rule = .firstSuccess → count ≠ 0)

/-- Operators take as many operands and functions as many arguments as their rules need, and what
reads stats takes two arguments. -/
structure Vocabulary.Sound (v : Vocabulary) : Prop where
  operators : ∀ op ∈ v.operators, op.arity = op.rule.operands
  functions : ∀ f ∈ v.functions, f.Sound
  stat : ∀ read, v.function? Vocabulary.statName = some read → read.arity.accepts 2 = true

/-- Whether a function takes so many arguments and has its rule read some of them, or takes any
number and has its rule read all of them. -/
def Function.isSound (f : Function) : Bool :=
  f.rule ≠ .firstSuccess && match f.arity with
    | .exactly n => (f.rule.reads n).all fun i => i < n && !f.isLazy i
    | .atLeast _ => f.rule ∈ [.largest, .smallest, .array, .total] && f.lazyPositions = []

theorem FunctionRule.reads_eq_range {rule : FunctionRule} (n : Nat)
    (h : rule ∈ [.largest, .smallest, .array, .total]) : rule.reads n = List.range n := by
  simp only [List.mem_cons, List.not_mem_nil, or_false] at h
  rcases h with rfl | rfl | rfl | rfl <;> rfl

theorem Function.sound_of_isSound {f : Function} (h : f.isSound = true) : f.Sound := by
  intro count hcount
  unfold Function.isSound at h
  obtain ⟨hfirst, hreads⟩ := Bool.and_eq_true_iff.1 h
  refine ⟨fun i hi => ?_, fun hrule => absurd hrule (of_decide_eq_true hfirst)⟩
  cases harity : f.arity with
  | exactly n =>
    rw [harity] at hcount hreads
    obtain rfl : count = n := of_decide_eq_true hcount
    simpa using List.all_eq_true.1 hreads i hi
  | atLeast n =>
    rw [harity] at hreads
    obtain ⟨hrule, hlazy⟩ := Bool.and_eq_true_iff.1 hreads
    rw [FunctionRule.reads_eq_range count (of_decide_eq_true hrule)] at hi
    refine ⟨List.mem_range.1 hi, ?_⟩
    unfold Function.isLazy
    rw [of_decide_eq_true hlazy]
    rfl

/-- The standard vocabulary is sound. -/
theorem sound_standard : Vocabulary.standard.Sound where
  operators := by decide
  functions := by
    have hsound : ∀ f ∈ Vocabulary.standard.functions, f.isSound = true := by decide
    exact fun f hf => f.sound_of_isSound (hsound f hf)
  stat := by decide

theorem Vocabulary.Sound.arity {v : Vocabulary} (hv : v.Sound) {op : Operator}
    (hop : op ∈ v.operators) : op.arity = 1 ∨ op.arity = 2 := by
  rw [hv.operators op hop]
  unfold OperatorRule.operands
  split <;> simp

/-! ## Saturated expressions -/

mutual

/-- Every operator and function is one of the vocabulary and has as many operands or arguments as it
takes, and the leaves are inert. -/
def Expr.Saturated (v : Vocabulary) : Expr → Prop
  | .leaf x => x.Inert
  | .apply op operands => op ∈ v.operators ∧ operands.length = op.arity ∧
    Expr.AllSaturated v operands
  | .call f arguments => f ∈ v.functions ∧ f.arity.accepts arguments.length = true ∧
    Expr.AllSaturated v arguments

/-- All of them are saturated. -/
def Expr.AllSaturated (v : Vocabulary) : List Expr → Prop
  | [] => True
  | e :: rest => e.Saturated v ∧ Expr.AllSaturated v rest

end

section Reading

variable {v : Vocabulary}

theorem Expr.allSaturated_iff {es : List Expr} :
    Expr.AllSaturated v es ↔ ∀ e ∈ es, e.Saturated v := by
  induction es with
  | nil => simp [Expr.AllSaturated]
  | cons e rest ih => simp [Expr.AllSaturated, ih]

/-- The operator waits for its last operand and has the others. -/
def Waiting.Saturated (v : Vocabulary) : Waiting → Prop
  | binary left op => op ∈ v.operators ∧ op.arity = 2 ∧ left.Saturated v
  | unary op => op ∈ v.operators ∧ op.arity = 1

/-- All operators that wait have their other operands. -/
def Level.Saturated (v : Vocabulary) (level : Level) : Prop :=
  ∀ w ∈ level.waiting, w.1.Saturated v

/-- What was read of the arguments is saturated. -/
def Purpose.Saturated (v : Vocabulary) : Purpose → Prop
  | group => True
  | arguments f read => f ∈ v.functions ∧ Expr.AllSaturated v read

theorem Waiting.Saturated.fill {w : Waiting} {e : Expr} (hw : w.Saturated v)
    (he : e.Saturated v) : (w.fill e).Saturated v := by
  cases w with
  | binary left op =>
    obtain ⟨hop, harity, hleft⟩ := hw
    exact ⟨hop, harity.symm, hleft, he, trivial⟩
  | unary op =>
    obtain ⟨hop, harity⟩ := hw
    exact ⟨hop, harity.symm, he, trivial⟩

theorem Level.saturated_start : Level.start.Saturated v := nofun

theorem saturated_foldl_fill {waiting : List (Waiting × Nat)} {e : Expr}
    (hwaiting : ∀ w ∈ waiting, w.1.Saturated v) (he : e.Saturated v) :
    (waiting.foldl (fun e w => w.1.fill e) e).Saturated v := by
  induction waiting generalizing e with
  | nil => exact he
  | cons w rest ih =>
    obtain ⟨hw, hrest⟩ := List.forall_mem_cons.1 hwaiting
    exact ih hrest (hw.fill he)

theorem Level.Saturated.finish {level : Level} {e : Expr} (hlevel : level.Saturated v)
    (he : e.Saturated v) : (level.finish e).Saturated v :=
  saturated_foldl_fill hlevel he

theorem Level.saturated_settle (p : Nat) {e : Expr} (he : e.Saturated v) (floor : Nat)
    {waiting : List (Waiting × Nat)} (hwaiting : ∀ w ∈ waiting, w.1.Saturated v) :
    (Level.settle p e floor waiting).1.Saturated v ∧
      (Level.settle p e floor waiting).2.Saturated v := by
  induction waiting generalizing e floor with
  | nil => exact ⟨he, nofun⟩
  | cons w rest ih =>
    obtain ⟨hw, hrest⟩ := List.forall_mem_cons.1 hwaiting
    rw [Level.settle]
    split
    · exact ⟨he, hwaiting⟩
    · exact ih (hw.fill he) w.2 hrest

theorem Level.Saturated.pushUnary {level : Level} {op : Operator} (hlevel : level.Saturated v)
    (hop : op ∈ v.operators) (harity : op.arity = 1) : (level.pushUnary op).Saturated v :=
  List.forall_mem_cons.2 ⟨⟨hop, harity⟩, hlevel⟩

theorem Level.Saturated.pushBinary {level : Level} {e : Expr} {op : Operator}
    (hlevel : level.Saturated v) (he : e.Saturated v) (hop : op ∈ v.operators)
    (harity : op.arity = 2) : (level.pushBinary e op).Saturated v := by
  obtain ⟨hleft, hrest⟩ := Level.saturated_settle op.precedence he level.floor hlevel
  exact List.forall_mem_cons.2 ⟨⟨hop, harity, hleft⟩, hrest⟩

theorem saturated_ofCall {f : Function} {arguments : List Expr} {c : Expr}
    (h : Expr.ofCall f arguments = .ok c) (hf : f ∈ v.functions)
    (harguments : Expr.AllSaturated v arguments) : c.Saturated v := by
  obtain ⟨haccepts, rfl⟩ := accepts_of_ofCall h
  exact ⟨hf, haccepts, harguments⟩

/-- What was read of the arguments, and one more. -/
theorem Purpose.Saturated.next {f : Function} {read : List Expr} {e : Expr}
    (h : (Purpose.arguments f read).Saturated v) (he : e.Saturated v) :
    Expr.AllSaturated v (read ++ [e]) := by
  rw [Expr.allSaturated_iff, List.forall_mem_append]
  exact ⟨Expr.allSaturated_iff.1 h.2, List.forall_mem_singleton.2 he⟩

/-- A word stands for a number or a key. -/
theorem inert_literal (text : String) : (Expr.literal text).Inert := by
  unfold Expr.literal
  dsimp only
  split <;> split
  · split <;> rfl
  · rfl
  · split <;> rfl
  · rfl

/-- The operators and functions among the tokens are those of the vocabulary. -/
def Known (v : Vocabulary) (tokens : List Token) : Prop :=
  ∀ t ∈ tokens, match t with
    | .operator op => op ∈ v.operators
    | .function f => f ∈ v.functions
    | _ => True

theorem Classified.known {tokens : List Token} (h : Classified v tokens) : Known v tokens := by
  intro t ht
  obtain ⟨text, hclassify⟩ := h t ht
  cases t with
  | operator op => exact mem_operators_of_classify hclassify.symm
  | function f => exact mem_functions_of_classify hclassify.symm
  | _ => trivial

/-- **Reading.** From a saturated operand, with saturated operands behind what waits and in the
brackets that are open, a run completes a saturated expression. -/
theorem Reads.saturated (hv : v.Sound) {operand? : Option Expr} {level : Level} {opened : Enclosing}
    {tokens : List Token} {e : Expr} (h : Reads operand? level opened tokens e)
    (htokens : Known v tokens) (hoperand : ∀ x ∈ operand?, x.Saturated v)
    (hlevel : level.Saturated v)
    (hopened : ∀ o ∈ opened, o.1.Saturated v ∧ o.2.Saturated v) : e.Saturated v := by
  induction h with
  | @word _ _ name _ _ _ _ ih =>
    have hword : (Expr.leaf (Expr.literal name)).Saturated v := inert_literal name
    exact ih (List.forall_mem_cons.1 htokens).2 (by simpa using hword) hlevel hopened
  | opening _ ih =>
    exact ih (List.forall_mem_cons.1 htokens).2 nofun Level.saturated_start
      (List.forall_mem_cons.2 ⟨⟨trivial, hlevel⟩, hopened⟩)
  | emptyCall accepted _ ih =>
    obtain ⟨hf, htokens⟩ := List.forall_mem_cons.1 htokens
    have hcall := saturated_ofCall accepted hf (v := v) trivial
    exact ih (fun t ht => htokens t (.tail _ (.tail _ ht))) (by simpa using hcall) hlevel hopened
  | call _ _ ih =>
    obtain ⟨hf, htokens⟩ := List.forall_mem_cons.1 htokens
    exact ih (List.forall_mem_cons.1 htokens).2 nofun Level.saturated_start
      (List.forall_mem_cons.2 ⟨⟨⟨hf, trivial⟩, hlevel⟩, hopened⟩)
  | unary kind _ ih =>
    obtain ⟨hop, htokens⟩ := List.forall_mem_cons.1 htokens
    exact ih htokens nofun (hlevel.pushUnary hop (of_decide_eq_true kind)) hopened
  | @binary x level _ op _ _ kind _ ih =>
    obtain ⟨hop, htokens⟩ := List.forall_mem_cons.1 htokens
    have hbinary : op.arity = 2 := (hv.arity hop).resolve_left (of_decide_eq_false kind)
    exact ih htokens nofun (hlevel.pushBinary (hoperand x rfl) hop hbinary) hopened
  | @closing x _ _ _ _ _ _ ih =>
    obtain ⟨⟨-, houter⟩, hopened⟩ := List.forall_mem_cons.1 hopened
    have hgroup := hlevel.finish (hoperand x rfl)
    exact ih (List.forall_mem_cons.1 htokens).2 (by simpa using hgroup) houter hopened
  | @closingCall x _ _ _ f read _ _ _ accepted _ ih =>
    obtain ⟨⟨hread, houter⟩, hopened⟩ := List.forall_mem_cons.1 hopened
    have hcall := saturated_ofCall accepted hread.1 (hread.next (hlevel.finish (hoperand x rfl)))
    exact ih (List.forall_mem_cons.1 htokens).2 (by simpa using hcall) houter hopened
  | @next x _ _ _ f read _ _ _ ih =>
    obtain ⟨⟨hread, houter⟩, hopened⟩ := List.forall_mem_cons.1 hopened
    have hnext := hread.next (hlevel.finish (hoperand x rfl))
    exact ih (List.forall_mem_cons.1 htokens).2 nofun Level.saturated_start
      (List.forall_mem_cons.2 ⟨⟨⟨hread.1, hnext⟩, houter⟩, hopened⟩)
  | done x level => exact hlevel.finish (hoperand x rfl)

theorem saturated_of_parse (hv : v.Sound) {text : String} {e : Expr}
    (h : Expr.parse v text = .ok e) : e.Saturated v := by
  obtain ⟨tokens, hclassified, hreads⟩ := exists_reads_of_parse h
  exact hreads.saturated hv hclassified.known nofun Level.saturated_start nofun

end Reading

/-! ## Bindings -/

section Bindings

variable {v : Vocabulary} {f : Option Slot → String → Option Expr}

namespace Expr

theorem length_substituteOperands (f : Option Slot → String → Option Expr) (es : List Expr) :
    (substituteOperands f es).length = es.length := by
  induction es with
  | nil => rfl
  | cons e rest ih => simp [substituteOperands, ih]

theorem length_substituteArguments (f : Option Slot → String → Option Expr) (g : Function) (i : Nat)
    (es : List Expr) : (substituteArguments f g i es).length = es.length := by
  induction es generalizing i with
  | nil => rfl
  | cons e rest ih => simp [substituteArguments, ih]

mutual

/-- A substitution changes no numbers of arguments. -/
theorem saturated_substitute (hf : ∀ slot name x, f slot name = some x → x.Saturated v)
    (slot : Option Slot) : ∀ e : Expr, e.Saturated v → (e.substitute f slot).Saturated v
  | leaf x, h => by
    cases x with
    | key name =>
      rw [substitute]
      cases hx : f slot name with
      | none => exact h
      | some x => exact hf slot name x hx
    | _ => simpa only [substitute] using h
  | apply op operands, ⟨hop, hlength, hoperands⟩ => by
    rw [substitute]
    exact ⟨hop, (length_substituteOperands f operands).trans hlength,
      allSaturated_substituteOperands hf operands hoperands⟩
  | call g arguments, ⟨hg, haccepts, harguments⟩ => by
    rw [substitute]
    refine ⟨hg, ?_, allSaturated_substituteArguments hf g 0 arguments harguments⟩
    rwa [length_substituteArguments]

theorem allSaturated_substituteOperands
    (hf : ∀ slot name x, f slot name = some x → x.Saturated v) :
    ∀ es : List Expr, AllSaturated v es → AllSaturated v (substituteOperands f es)
  | [], _ => trivial
  | e :: rest, ⟨he, hrest⟩ =>
    ⟨saturated_substitute hf none e he, allSaturated_substituteOperands hf rest hrest⟩

theorem allSaturated_substituteArguments
    (hf : ∀ slot name x, f slot name = some x → x.Saturated v) (g : Function) (i : Nat) :
    ∀ es : List Expr, AllSaturated v es → AllSaturated v (substituteArguments f g i es)
  | [], _ => trivial
  | e :: rest, ⟨he, hrest⟩ =>
    ⟨saturated_substitute hf (some ⟨g, i⟩) e he,
      allSaturated_substituteArguments hf g (i + 1) rest hrest⟩

end

variable {e : Expr}

theorem saturated_bindRoles (source target : String) (he : e.Saturated v) :
    (e.bindRoles source target).Saturated v := by
  refine saturated_substitute (fun _ name x hx => ?_) none e he
  split at hx
  · cases hx
    rfl
  · split at hx
    · cases hx
      rfl
    · cases hx

theorem saturated_bindAmount (amount : Float) (he : e.Saturated v) :
    (e.bindAmount amount).Saturated v := by
  refine saturated_substitute (fun _ name x hx => ?_) none e he
  split at hx
  · cases hx
    rfl
  · cases hx

theorem answers_bindArguments (values : List Float) (he : e.Saturated v) :
    Answers EvalError.Fitting (Saturated v) (e.bindArguments values) := by
  unfold bindArguments
  split
  · trivial
  · refine saturated_substitute (fun _ name x hx => ?_) none e he
    obtain ⟨i, -, hx⟩ := Option.bind_eq_some_iff.1 hx
    obtain ⟨y, -, hy⟩ := Option.bind_eq_some_iff.1 hx
    cases hy
    rfl

theorem saturated_bindStats (hv : v.Sound) (hasStat : String → Bool) (entity : String)
    (he : e.Saturated v) : (e.bindStats v hasStat entity).Saturated v := by
  unfold bindStats
  split
  · exact he
  · next read found =>
    refine saturated_substitute (fun _ name x hx => ?_) none e he
    split at hx
    · cases hx
    · cases hx
      exact ⟨List.mem_of_find?_eq_some found, hv.stat read found, rfl, rfl, trivial⟩

theorem saturated_bindSkill (hv : v.Sound) (hasStat : String → String → Bool)
    (source target : String) (he : e.Saturated v) :
    (e.bindSkill v hasStat source target).Saturated v :=
  saturated_bindStats hv _ _ (saturated_bindRoles source target he)

theorem saturated_bindMitigation (hv : v.Sound) (hasStat : String → String → Bool)
    (target source : String) (amount : Float) (he : e.Saturated v) :
    (e.bindMitigation v hasStat target source amount).Saturated v :=
  saturated_bindStats hv _ _ (saturated_bindAmount amount (saturated_bindRoles source target he))

theorem answers_bindStatus (source target : String) (values : List Float) (he : e.Saturated v) :
    Answers EvalError.Fitting (Saturated v) (e.bindStatus source target values) :=
  answers_bindArguments values (saturated_bindRoles source target he)

theorem saturated_bindCompound (hv : v.Sound) (hasStat : String → String → Bool) (entity : String)
    (he : e.Saturated v) : (e.bindCompound v hasStat entity).Saturated v :=
  saturated_bindStats hv _ _ (saturated_bindRoles entity entity he)

end Expr

/-- A single binding. -/
inductive Binding
  | roles (source target : String)
  | amount (x : Float)
  | arguments (values : List Float)
  | stats (hasStat : String → Bool) (entity : String)

/-- Binds as it says. -/
def Binding.bind (v : Vocabulary) (e : Expr) : Binding → Except EvalError Expr
  | roles source target => .ok (e.bindRoles source target)
  | amount x => .ok (e.bindAmount x)
  | arguments values => e.bindArguments values
  | stats hasStat entity => .ok (e.bindStats v hasStat entity)

/-- Binds one after another. -/
def Expr.bindAll (v : Vocabulary) (e : Expr) (bindings : List Binding) : Except EvalError Expr :=
  bindings.foldlM (Binding.bind v) e

theorem answers_bind_binding (hv : v.Sound) {e : Expr} (b : Binding) (he : e.Saturated v) :
    Answers EvalError.Fitting (Expr.Saturated v) (b.bind v e) := by
  cases b with
  | roles source target => exact Expr.saturated_bindRoles source target he
  | amount x => exact Expr.saturated_bindAmount x he
  | arguments values => exact Expr.answers_bindArguments values he
  | stats hasStat entity => exact Expr.saturated_bindStats hv hasStat entity he

/-- **Bindings.** Bindings one after another keep an expression saturated. -/
theorem answers_bindAll (hv : v.Sound) {e : Expr} (bindings : List Binding) (he : e.Saturated v) :
    Answers EvalError.Fitting (Expr.Saturated v) (e.bindAll v bindings) := by
  induction bindings generalizing e with
  | nil => exact he
  | cons b rest ih => exact answers_bind (answers_bind_binding hv b he) fun _ hx => ih hx

end Bindings

/-! ## Evaluation -/

section Evaluation

open Evaluation (On)

variable {v : Vocabulary} {σ : Type} {I : σ → Prop} {w : World σ}

/-- A rule on as many operands as it computes on. -/
theorem answers_rule (name : String) (rule : OperatorRule) {operands : List Value}
    (h : operands.length = rule.operands) :
    Answers EvalError.Fitting Value.Inert (rule.apply name operands) := by
  have hpair (a b : Value) : Answers EvalError.Fitting (fun _ => True) (numberPair a b) :=
    answers_bind (answers_asNumber a) fun _ _ => answers_bind (answers_asNumber b) fun _ _ => trivial
  match rule, operands, h with
  | .complement, [a], _ => exact answers_bind (answers_asBoolean a) fun _ _ => rfl
  | .opposite, [a], _ => exact answers_bind (answers_asNumber a) fun _ _ => rfl
  | .conjunction, [a, b], _ =>
    refine answers_bind (answers_asBoolean a) fun x _ => ?_
    cases x with
    | true => exact answers_bind (answers_asBoolean b) fun _ _ => rfl
    | false => rfl
  | .sum, [a, b], _ | .difference, [a, b], _ | .product, [a, b], _ | .quotient, [a, b], _
  | .power, [a, b], _ | .greater, [a, b], _ | .less, [a, b], _ | .equal, [a, b], _
  | .percentage, [a, b], _ | .orElse, [a, b], _ | .doubledSum, [a, b], _ =>
    exact answers_bind (hpair a b) fun _ _ => rfl

theorem answers_apply (hv : v.Sound) {op : Operator} (hop : op ∈ v.operators)
    {operands : List Value} (h : operands.length = op.arity) :
    Answers EvalError.Fitting Value.Inert (op.apply operands) := by
  unfold Operator.apply
  rw [if_pos h]
  exact answers_rule op.symbol op.rule (h.trans (hv.operators op hop))

/-- The arguments from position `i` on yield inert values, and those that do not wait are such. -/
def Supplied (I : σ → Prop) (f : Function) (i : Nat) (args : List (Arg σ)) : Prop :=
  ∀ k a, args[k]? = some a → Yields (On I) EvalError.Fitting Value.Inert a.force ∧
    (f.isLazy (i + k) = false → ∃ x : Value, a = .value x ∧ x.Inert)

theorem supplied_cons {f : Function} {i : Nat} {a : Arg σ} {rest : List (Arg σ)}
    (ha : Yields (On I) EvalError.Fitting Value.Inert a.force ∧
      (f.isLazy i = false → ∃ x : Value, a = .value x ∧ x.Inert))
    (hrest : Supplied I f (i + 1) rest) : Supplied I f i (a :: rest) := by
  intro k b hb
  cases k with
  | zero =>
    cases hb
    exact ha
  | succ k =>
    have hk := hrest k b hb
    rwa [Nat.add_assoc, Nat.add_comm 1] at hk

theorem served_of_supplied {f : Function} {args : List (Arg σ)} (hf : f.Sound)
    (haccepts : f.arity.accepts args.length = true) (h : Supplied I f 0 args) :
    f.Served I args := by
  obtain ⟨hreads, hfirst⟩ := hf args.length haccepts
  refine ⟨fun i hi => ?_, fun a ha => ?_, fun hrule hnil => ?_⟩
  · obtain ⟨hlt, hlazy⟩ := hreads i hi
    obtain ⟨x, hx, hinert⟩ := (h i args[i] (List.getElem?_eq_getElem hlt)).2 (by rwa [Nat.zero_add])
    refine ⟨x, ?_, hinert⟩
    rw [List.getElem?_eq_getElem hlt, hx]
    rfl
  · obtain ⟨i, hi⟩ := List.mem_iff_getElem?.1 ha
    exact (h i a hi).1
  · exact hfirst hrule (by rw [hnil]; rfl)

mutual

/-- **Evaluation.** A saturated expression gives inert values, and faults other than a wrong number
of arguments, as far as the world does. -/
theorem yields_eval (hv : v.Sound) (hw : w.Yields I EvalError.Fitting) :
    ∀ e : Expr, e.Saturated v → Yields (On I) EvalError.Fitting Value.Inert (e.eval w)
  | .leaf x, h => by
    rw [Expr.eval]
    refine yields_nested trivial ?_
    cases x with
    | key name =>
      refine yields_bind (yields_ask (V := fun _ => True) fun _ _ => trivial) fun b _ => ?_
      cases b <;> exact yields_pure rfl
    | operator | function => cases h
    | _ => exact yields_pure h
  | .apply op operands, ⟨hop, hlength, hoperands⟩ => by
    rw [Expr.eval]
    refine yields_nested trivial (yields_bind (yields_evalOperands hv hw operands hoperands) ?_)
    exact fun _ hvs => yields_lift (answers_apply hv hop (hvs.trans hlength))
  | .call f arguments, ⟨hf, haccepts, harguments⟩ => by
    rw [Expr.eval]
    refine yields_nested trivial (yields_bind (yields_evalArguments hv hw f 0 arguments harguments) ?_)
    rintro args ⟨hlength, hsupplied⟩
    rw [← hlength] at haccepts
    unfold Function.call
    rw [if_pos haccepts]
    exact yields_run (served_of_supplied (hv.functions f hf) haccepts hsupplied) hw

theorem yields_evalOperands (hv : v.Sound) (hw : w.Yields I EvalError.Fitting) :
    ∀ es : List Expr, Expr.AllSaturated v es →
      Yields (On I) EvalError.Fitting (fun vs => vs.length = es.length) (Expr.evalOperands w es)
  | [], _ => by
    rw [Expr.evalOperands]
    exact yields_pure rfl
  | e :: rest, ⟨he, hrest⟩ => by
    rw [Expr.evalOperands]
    exact yields_bind (yields_eval hv hw e he) fun _ _ =>
      yields_bind (yields_evalOperands hv hw rest hrest) fun _ hvs => yields_pure (congrArg (· + 1) hvs)

theorem yields_evalArguments (hv : v.Sound) (hw : w.Yields I EvalError.Fitting) (f : Function)
    (i : Nat) : ∀ es : List Expr, Expr.AllSaturated v es →
      Yields (On I) EvalError.Fitting (fun args => args.length = es.length ∧ Supplied I f i args)
        (Expr.evalArguments w f i es)
  | [], _ => by
    rw [Expr.evalArguments]
    exact yields_pure ⟨rfl, nofun⟩
  | e :: rest, ⟨he, hrest⟩ => by
    have hargument : Yields (On I) EvalError.Fitting
        (fun a => Yields (On I) EvalError.Fitting Value.Inert a.force ∧
          (f.isLazy i = false → ∃ x : Value, a = .value x ∧ x.Inert))
        (if f.isLazy i then pure (Arg.deferred (e.eval w)) else Arg.value <$> e.eval w) := by
      cases hlazy : f.isLazy i with
      | true => exact yields_pure ⟨yields_eval hv hw e he, nofun⟩
      | false =>
        exact yields_map (yields_eval hv hw e he) fun x hx =>
          ⟨yields_pure hx, fun _ => ⟨x, rfl, hx⟩⟩
    rw [evalArguments_cons]
    refine yields_bind hargument fun a ha =>
      yields_map (yields_evalArguments hv hw f (i + 1) rest hrest) fun args hargs => ?_
    exact ⟨congrArg (· + 1) hargs.1, supplied_cons ha hargs.2⟩

end

/-- Evaluated from the outside, too. -/
theorem yields_resolve (hv : v.Sound) (hw : w.Yields I EvalError.Fitting) {e : Expr}
    (he : e.Saturated v) : Yields I EvalError.Fitting Value.Inert (e.resolve w) := by
  intro s hs
  have heval := yields_eval hv hw e he
  have hs' : On I ⟨s, 0⟩ := hs
  unfold Expr.resolve
  cases hr : e.eval w ⟨s, 0⟩ with
  | ok x t => exact heval.of_ok hs' hr
  | error err t => exact heval.of_error hs' hr

end Evaluation

end Skirmish.Formula
