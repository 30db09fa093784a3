import Mathlib.Data.Set.Insert
import Skirmish.Proofs.Formula.Calls

/-!
# Names that collide with entities

A name may happen to be that of an entity. A key then evaluates to the entity, and not to itself.
Where functions take names, and where they take the participants of damage and healing, the two are
taken alike (`Value.asKey`).

1. `Blind K V p p'`: the programs make the same calls and have values related by `V`, whatever they
   are told about which of the names in `K` are entities. Where worlds agree but on that
   (`World.AgreesBut`), such programs run alike (`Blind.run`).
2. `SamePart`: at a position where names are taken, two values are as good as each other if they
   answer to the same name. So a function is blind if its arguments are (`blind_function`).
3. `names_absorbed`: an expression with names of `K` in such positions only evaluates alike in these
   worlds, and makes the same calls.
-/

namespace Skirmish.Formula

variable {σ α β γ δ : Type} {K : Set String}

/-! ## Blind programs -/

/-- The name that a call asks about: is there such an entity? -/
def Call.asked? : Call → Option String
  | entityExists name => some name
  | _ => none

/-- The answers to a call are the same, unless it asks about a name in `K`. -/
def Call.Alike (K : Set String) (c : Call) (a b : c.Answer) : Prop :=
  (∀ name ∈ K, c.asked? ≠ some name) → a = b

/-- The programs make the same calls and end with values related by `V` or the same fault, whatever
they are told about the names in `K`. -/
inductive Blind (K : Set String) (V : α → β → Prop) : Program α → Program β → Prop
  | done {a : α} {b : β} (h : V a b) : Blind K V (.done a) (.done b)
  | fault (e : EvalError) : Blind K V (.fault e) (.fault e)
  | call (c : Call) {next : c.Answer → Program α} {next' : c.Answer → Program β}
      (h : ∀ a b, c.Alike K a b → Blind K V (next a) (next' b)) :
      Blind K V (.call c next) (.call c next')

section Blind

variable {V : α → β → Prop} {W : γ → δ → Prop} {p : Program α} {p' : Program β}

theorem blind_bind (h : Blind K V p p') {k : α → Program γ} {k' : β → Program δ}
    (hk : ∀ a b, V a b → Blind K W (k a) (k' b)) : Blind K W (p >>= k) (p' >>= k') := by
  induction h with
  | done h => exact hk _ _ h
  | fault e => exact .fault e
  | call c _ ih => exact .call c ih

theorem blind_orElse (h : Blind K V p p') {k : EvalError → Program α} {k' : EvalError → Program β}
    (hk : ∀ e, Blind K V (k e) (k' e)) : Blind K V (p.orElse k) (p'.orElse k') := by
  induction h with
  | done h => exact .done h
  | fault e => exact hk e
  | call c _ ih => exact .call c ih

theorem blind_ofExcept (x : Except EvalError α) :
    Blind K Eq (Program.ofExcept x) (Program.ofExcept x) := by
  cases x with
  | ok a => exact .done rfl
  | error e => exact .fault e

theorem blind_nested (h : Blind K V p p') (d : Nat) :
    Blind K V (Program.nested d p) (Program.nested d p') := by
  unfold Program.nested
  split
  · exact .fault _
  · exact h

end Blind

/-- On related states the worlds give the same answers and do the same, but need not agree on which
of the names in `K` are entities. -/
structure World.AgreesBut (K : Set String) (w w' : World σ) (R : σ → σ → Prop) : Prop where
  entityExists : ∀ s t, R s t → ∀ name, name ∉ K → w.entityExists s name = w'.entityExists t name
  players : ∀ s t, R s t → w.players s = w'.players t
  activePlayers : ∀ s t, R s t → w.activePlayers s = w'.activePlayers t
  stat : ∀ s t, R s t → w.stat s = w'.stat t
  harm : ∀ target source type amount,
    Formula.Simulates R (w.harm target source type amount) (w'.harm target source type amount)
  heal : ∀ target source amount,
    Formula.Simulates R (w.heal target source amount) (w'.heal target source amount)
  cast : ∀ caster target skill,
    Formula.Simulates R (w.cast caster target skill) (w'.cast caster target skill)
  inflict : ∀ target source status duration values,
    Formula.Simulates R (w.inflict target source status duration values)
      (w'.inflict target source status duration values)
  roll : ∀ upper s t, R s t →
    (w.roll upper s).1 = (w'.roll upper t).1 ∧ R (w.roll upper s).2 (w'.roll upper t).2

section Runs

variable {w w' : World σ} {R : σ → σ → Prop} {s t : σ}

theorem Simulates.ending {act act' : Action σ Unit} (h : Simulates R act act') (hst : R s t) :
    (ending act s).1 = (ending act' t).1 ∧ R (ending act s).2 (ending act' t).2 := by
  unfold Formula.ending
  obtain ⟨_, _, s', t', hs, ht, -, state⟩ | ⟨e, s', t', hs, ht, state⟩ := h.ends hst
  · rw [hs, ht]
    exact ⟨rfl, state⟩
  · rw [hs, ht]
    exact ⟨rfl, state⟩

/-- A call is answered alike and leaves related states. -/
theorem World.AgreesBut.answer (h : w.AgreesBut K w' R) (hst : R s t) (c : Call) :
    c.Alike K (w.answer c s).1 (w'.answer c t).1 ∧ R (w.answer c s).2 (w'.answer c t).2 := by
  cases c with
  | entityExists name =>
    exact ⟨fun hname => h.entityExists s t hst name fun hK => hname name hK rfl, hst⟩
  | players => exact ⟨fun _ => h.players s t hst, hst⟩
  | activePlayers => exact ⟨fun _ => h.activePlayers s t hst, hst⟩
  | stat entity stat => exact ⟨fun _ => congrFun₂ (h.stat s t hst) entity stat, hst⟩
  | harm => exact ((h.harm _ _ _ _).ending hst).imp_left fun heq _ => heq
  | heal => exact ((h.heal _ _ _).ending hst).imp_left fun heq _ => heq
  | cast => exact ((h.cast _ _ _).ending hst).imp_left fun heq _ => heq
  | inflict => exact ((h.inflict _ _ _ _ _).ending hst).imp_left fun heq _ => heq
  | roll upper => exact (h.roll upper s t hst).imp_left fun heq _ => heq

/-- **Runs.** In worlds that agree but on `K`, blind programs make the same calls and end alike. -/
theorem Blind.run {V : α → β → Prop} {p : Program α} {p' : Program β} (h : Blind K V p p')
    (hw : w.AgreesBut K w' R) (hst : R s t) :
    (p.run w s).1 = (p'.run w' t).1 ∧ SameEnd V R (p.run w s).2 (p'.run w' t).2 := by
  induction h generalizing s t with
  | done h => exact ⟨rfl, .ok h hst⟩
  | fault e => exact ⟨rfl, .error e hst⟩
  | call c _ ih =>
    obtain ⟨halike, hstate⟩ := hw.answer hst c
    exact (ih _ _ halike hstate).imp_left (congrArg (c :: ·))

end Runs

/-! ## Functions that take names -/

/-- The positions where the function takes names, or the participants of damage and healing. -/
def Function.namePositions (f : Function) : List Nat :=
  f.keyPositions ++ if f.rule = .harm ∨ f.rule = .heal then [0, 1] else []

/-- The positions at which a function of that rule reads nothing but a name. -/
def FunctionRule.readsName : FunctionRule → List Nat
  | harm => [0, 1, 2]
  | heal => [0, 1]
  | stat => [1]
  | cast => [2]
  | modifier => [0]
  | inflict => [2]
  | _ => []

/-- Where the function takes names it reads nothing else, and these arguments do not wait. -/
def Function.Tolerant (f : Function) : Prop :=
  ∀ i ∈ f.namePositions, i ∈ f.rule.readsName ∧ i ∉ f.lazyPositions

instance (f : Function) : Decidable f.Tolerant :=
  inferInstanceAs (Decidable (∀ i ∈ f.namePositions, _))

/-- All standard functions are. -/
theorem tolerant_of_standard : ∀ f ∈ Vocabulary.standard.functions, f.Tolerant := by decide

/-- As arguments at position `i`, the parts are as good as each other. -/
inductive SamePart (K : Set String) (f : Function) (i : Nat) : Part → Part → Prop
  | value (v : Value) : SamePart K f i (.value v) (.value v)
  | name {v v' : Value} (position : i ∈ f.namePositions) (h : v.asKey = v'.asKey) :
    SamePart K f i (.value v) (.value v')
  | waiting {p p' : Program Value} (h : Blind K Eq p p') : SamePart K f i (.waiting p) (.waiting p')

/-- As arguments from position `i` on, they are. -/
inductive SameParts (K : Set String) (f : Function) : Nat → List Part → List Part → Prop
  | nil (i : Nat) : SameParts K f i [] []
  | cons {i : Nat} {a a' : Part} {rest rest' : List Part} (h : SamePart K f i a a')
      (hrest : SameParts K f (i + 1) rest rest') : SameParts K f i (a :: rest) (a' :: rest')

section Parts

variable {f : Function} {i : Nat} {parts parts' : List Part}

/-- Where no name is taken, the parts have the same values. -/
theorem SamePart.force {a a' : Part} (h : SamePart K f i a a') (hi : i ∉ f.namePositions) :
    Blind K Eq a.force a'.force := by
  cases h with
  | value v => exact .done rfl
  | name position => exact absurd position hi
  | waiting h => exact h

theorem SameParts.length_eq (h : SameParts K f i parts parts') : parts.length = parts'.length := by
  induction h with
  | nil => rfl
  | cons _ _ ih => exact congrArg (· + 1) ih

theorem SameParts.getElem? (h : SameParts K f i parts parts') (j : Nat) :
    Option.Rel (SamePart K f (i + j)) parts[j]? parts'[j]? := by
  induction h generalizing j with
  | nil => exact .none
  | cons h _ ih =>
    cases j with
    | zero => exact .some h
    | succ j =>
      have hj := ih j
      rwa [Nat.add_right_comm] at hj

section Reads

variable (h : SameParts K f 0 parts parts')

include h

/-- A function reads the same, or two values of the same name where it takes names. -/
theorem read_cases (i : Nat) :
    f.read (parts.map Part.value?) i = f.read (parts'.map Part.value?) i ∨
      i ∈ f.namePositions ∧ ∃ v v', f.read (parts.map Part.value?) i = .ok v ∧
        f.read (parts'.map Part.value?) i = .ok v' ∧ v.asKey = v'.asKey := by
  have hpart := h.getElem? i
  rw [Nat.zero_add] at hpart
  unfold Function.read
  rw [List.getElem?_map, List.getElem?_map, List.length_map, List.length_map, h.length_eq]
  generalize parts[i]? = a, parts'[i]? = a' at hpart ⊢
  cases hpart with
  | none => exact .inl rfl
  | some hpart =>
    cases hpart with
    | value v => exact .inl rfl
    | name position h => exact .inr ⟨position, _, _, rfl, rfl, h⟩
    | waiting => exact .inl rfl

theorem read_eq (hi : i ∉ f.namePositions) :
    f.read (parts.map Part.value?) i = f.read (parts'.map Part.value?) i :=
  (read_cases h i).resolve_right fun hname => hi hname.1

/-- The name that it reads is the same in any case. -/
theorem readName_eq {k : String → Except EvalError β} :
    (f.read (parts.map Part.value?) i >>= fun v => v.asKey >>= k) =
      f.read (parts'.map Part.value?) i >>= fun v => v.asKey >>= k := by
  obtain heq | ⟨-, v, v', hv, hv', hname⟩ := read_cases h i
  · rw [heq]
  · rw [hv, hv']
    exact congrArg (· >>= k) hname

/-- So a function wants the same. -/
theorem demand_eq (hf : f.Tolerant) :
    f.demand (parts.map Part.value?) = f.demand (parts'.map Part.value?) := by
  have hread (i : Nat) (hi : i ∉ f.rule.readsName) :=
    read_eq (i := i) h fun hname => hi (hf i hname).1
  by_cases hnames : f.rule.readsName = []
  · have hreads : f.read (parts.map Part.value?) = f.read (parts'.map Part.value?) :=
      funext fun i => hread i (hnames ▸ List.not_mem_nil)
    unfold Function.demand Function.readAll Function.readNumbers
    rw [hreads, List.length_map, List.length_map, h.length_eq]
  · unfold Function.demand
    cases hrule : f.rule
    case harm | heal | stat | cast | modifier | inflict =>
      rw [hrule] at hread
      simp (disch := decide) only [hread, readName_eq h]
    all_goals exact absurd (congrArg FunctionRule.readsName hrule) hnames

end Reads

end Parts

/-- The function asks the world about no name, and for its arguments only if it reads no names. -/
def Demand.Proper (f : Function) : Demand → Prop
  | answer _ => True
  | call c _ => c.asked? = none
  | argument _ | inTurn => f.rule.readsName = []

theorem proper_of_demand {f : Function} {given : List (Option Value)} {demand : Demand}
    (h : f.demand given = .ok demand) : demand.Proper f := by
  unfold Function.demand at h
  cases hrule : f.rule
  all_goals
    rw [hrule] at h
    dsimp only at h
    repeat' obtain ⟨_, -, h⟩ := exists_of_bind_eq_ok h
  case random | choose | pick =>
    split at h
    all_goals cases h
    all_goals first | trivial | exact congrArg FunctionRule.readsName hrule
  all_goals
    cases h
    first | trivial | exact congrArg FunctionRule.readsName hrule

section Calls

variable {f : Function} {parts parts' : List Part}

theorem blind_getD {i : Nat} (h : SameParts K f 0 parts parts') (hi : i ∉ f.namePositions) :
    Blind K Eq (parts.getD i (.value .null)).force (parts'.getD i (.value .null)).force := by
  have hpart := h.getElem? i
  rw [Nat.zero_add] at hpart
  rw [List.getD_eq_getElem?_getD, List.getD_eq_getElem?_getD]
  generalize parts[i]? = a, parts'[i]? = a' at hpart ⊢
  cases hpart with
  | none => exact .done rfl
  | some hpart => exact hpart.force hi

theorem blind_firstSuccess {i : Nat} (h : SameParts K f i parts parts')
    (hnames : ∀ j, j ∉ f.namePositions) (last : EvalError) :
    Blind K Eq (Program.firstSuccess last parts) (Program.firstSuccess last parts') := by
  induction h generalizing last with
  | nil => exact .fault last
  | cons h _ ih => exact blind_orElse (h.force (hnames _)) ih

theorem blind_demand (hf : f.Tolerant) (h : SameParts K f 0 parts parts') {demand : Demand}
    (proper : demand.Proper f) :
    Blind K Eq (demand.program f parts) (demand.program f parts') := by
  have hnames (hreads : f.rule.readsName = []) (i : Nat) : i ∉ f.namePositions := fun hi =>
    List.not_mem_nil (hreads ▸ (hf i hi).1)
  cases demand with
  | answer v => exact .done rfl
  | call c make =>
    refine .call c fun a b hab => ?_
    have heq : a = b := hab fun name _ hasked => nomatch proper.symm.trans hasked
    rw [heq]
    exact blind_ofExcept (make b)
  | argument i => exact blind_getD h (hnames proper i)
  | inTurn =>
    rw [Demand.program, Demand.program, h.length_eq]
    exact blind_firstSuccess h (hnames proper) _

/-- **Functions.** With arguments that are as good as each other, a function makes the same calls
and has the same value. -/
theorem blind_function (hf : f.Tolerant) (h : SameParts K f 0 parts parts') :
    Blind K Eq (f.program parts) (f.program parts') := by
  unfold Function.program
  rw [h.length_eq, demand_eq h hf]
  split
  · cases hdemand : f.demand (parts'.map Part.value?) with
    | error e => exact .fault e
    | ok demand => exact blind_demand hf h (proper_of_demand hdemand)
  · exact .fault _

end Calls

/-! ## Expressions -/

namespace Expr

mutual

/-- Each leaf that names something in `K` is itself an argument where names are taken. -/
def Confines (K : Set String) : Expr → Prop
  | leaf (.key name) => name ∉ K
  | leaf _ => True
  | apply _ operands => ConfinesEach K operands
  | call f arguments => ConfinesFrom K f 0 arguments

def ConfinesEach (K : Set String) : List Expr → Prop
  | [] => True
  | e :: rest => e.Confines K ∧ ConfinesEach K rest

/-- The arguments of a call, from position `i` on. -/
def ConfinesFrom (K : Set String) (f : Function) (i : Nat) : List Expr → Prop
  | [] => True
  | e :: rest =>
    (e.Confines K ∨ i ∈ f.namePositions ∧ ∃ name, e = leaf (.key name)) ∧
      ConfinesFrom K f (i + 1) rest

end

end Expr

/-- Whatever a key evaluates to answers to its name. -/
theorem blind_key (d : Nat) (name : String) :
    Blind K (fun v v' => v.asKey = v'.asKey) ((Expr.leaf (.key name)).program d)
      ((Expr.leaf (.key name)).program d) := by
  have hkey (there : Bool) : (if there then Value.entity name else .key name).asKey = .ok name := by
    cases there <;> rfl
  rw [Expr.program]
  exact blind_nested (.call _ fun a b _ => .done ((hkey a).trans (hkey b).symm)) d

theorem blind_leaf {v : Value} (hf : ∀ f ∈ (Expr.leaf v).functions, f.Tolerant)
    (h : (Expr.leaf v).Confines K) : Blind K Eq (Expr.leafProgram v) (Expr.leafProgram v) := by
  cases v with
  | key name =>
    refine .call _ fun a b hab => .done ?_
    have heq : a = b := hab fun other hother hasked => h (Option.some.inj hasked ▸ hother)
    rw [heq]
  | operator op => exact blind_ofExcept _
  | function f => exact blind_function (hf f List.mem_cons_self) (.nil 0)
  | _ => exact .done rfl

/-- An argument that is evaluated or waits. -/
theorem blind_part {f : Function} {i : Nat} {p : Program Value} (h : Blind K Eq p p) :
    Blind K (SamePart K f i) (Expr.partProgram (f.isLazy i) p)
      (Expr.partProgram (f.isLazy i) p) := by
  unfold Expr.partProgram
  split
  · exact .done (.waiting h)
  · exact blind_bind h fun v _ heq => heq ▸ .done (.value v)

/-- A key where names are taken. -/
theorem blind_namePart {f : Function} (hf : f.Tolerant) {i : Nat} (hi : i ∈ f.namePositions)
    (d : Nat) (name : String) :
    Blind K (SamePart K f i)
      (Expr.partProgram (f.isLazy i) ((Expr.leaf (.key name)).program d))
      (Expr.partProgram (f.isLazy i) ((Expr.leaf (.key name)).program d)) := by
  have hlazy : f.isLazy i = false := decide_eq_false (hf i hi).2
  rw [hlazy]
  exact blind_bind (blind_key d name) fun _ _ hname => .done (.name hi hname)

mutual

/-- **Expressions.** An expression that confines the names in `K` is blind to what they are. -/
theorem blind_program (d : Nat) : ∀ e : Expr, (∀ f ∈ e.functions, f.Tolerant) → e.Confines K →
    Blind K Eq (e.program d) (e.program d)
  | .leaf v, hf, h => by
    rw [Expr.program]
    exact blind_nested (blind_leaf hf h) d
  | .apply op operands, hf, h => by
    rw [Expr.program]
    refine blind_nested (blind_bind (blind_operands (d + 1) operands hf h) fun _ vs heq => ?_) d
    rw [heq]
    exact blind_ofExcept _
  | .call f arguments, hf, h => by
    rw [Expr.program]
    obtain ⟨hhead, hrest⟩ := List.forall_mem_cons.1 hf
    refine blind_nested (blind_bind (blind_arguments (d + 1) hhead 0 arguments hrest h) ?_) d
    exact fun _ _ hparts => blind_function hhead hparts

theorem blind_operands (d : Nat) : ∀ es : List Expr,
    (∀ f ∈ Expr.functionsOfEach es, f.Tolerant) → Expr.ConfinesEach K es →
    Blind K Eq (Expr.operandsProgram d es) (Expr.operandsProgram d es)
  | [], _, _ => by
    rw [Expr.operandsProgram]
    exact .done rfl
  | e :: rest, hf, h => by
    obtain ⟨he, hrest⟩ := List.forall_mem_append.1 hf
    rw [Expr.operandsProgram]
    exact blind_bind (blind_program d e he h.1) fun v _ hv =>
      blind_bind (blind_operands d rest hrest h.2) fun vs _ hvs => hv ▸ hvs ▸ .done rfl

theorem blind_arguments (d : Nat) {f : Function} (tolerant : f.Tolerant) (i : Nat) :
    ∀ es : List Expr, (∀ g ∈ Expr.functionsOfEach es, g.Tolerant) → Expr.ConfinesFrom K f i es →
    Blind K (SameParts K f i) (Expr.argumentsProgram d f i es) (Expr.argumentsProgram d f i es)
  | [], _, _ => by
    rw [Expr.argumentsProgram]
    exact .done (.nil i)
  | e :: rest, hf, h => by
    obtain ⟨he, hrest⟩ := List.forall_mem_append.1 hf
    have hpart : Blind K (SamePart K f i) (Expr.partProgram (f.isLazy i) (e.program d))
        (Expr.partProgram (f.isLazy i) (e.program d)) := by
      obtain hconfined | ⟨hi, name, rfl⟩ := h.1
      · exact blind_part (blind_program d e he hconfined)
      · exact blind_namePart tolerant hi d name
    rw [Expr.argumentsProgram]
    exact blind_bind hpart fun _ _ ha =>
      blind_bind (blind_arguments d tolerant (i + 1) rest hrest h.2) fun _ _ has =>
        .done (.cons ha has)

end

section Names

variable {w w' : World σ} {R : σ → σ → Prop} {e : Expr} {s t : σ}

/-- **Names.** Worlds that agree but on which of the names in `K` are entities evaluate a standard
expression alike that has these names only where names are taken. They are asked the same and do the
same, one call after the other. -/
theorem names_absorbed (hw : w.AgreesBut K w' R)
    (standard : ∀ f ∈ e.functions, f ∈ Vocabulary.standard.functions) (confined : e.Confines K)
    (hst : R s t) :
    ∃ calls, (e.program 0).run w s = (calls, e.resolve w s) ∧
      (e.program 0).run w' t = (calls, e.resolve w' t) ∧
      SameEnd Eq R (e.resolve w s) (e.resolve w' t) := by
  have hblind : Blind K Eq (e.program 0) (e.program 0) :=
    blind_program 0 e (fun f hf => tolerant_of_standard f (standard f hf)) confined
  obtain ⟨hcalls, hend⟩ := hblind.run hw hst
  rw [run_program, run_program] at hend
  refine ⟨((e.program 0).run w s).1, ?_, ?_, hend⟩
  · rw [← run_program]
  · rw [hcalls, ← run_program]

end Names

/-- The deserted world, but for one entity. -/
def World.solitary (name : String) : World Generator :=
  { World.deserted with entityExists := fun _ other => other = name }

theorem agreesBut_solitary (name : String) :
    World.deserted.AgreesBut {name} (World.solitary name) Eq where
  entityExists _ _ _ other hother := (decide_eq_false (p := other = name) hother).symm
  players _ _ _ := rfl
  activePlayers _ _ _ := rfl
  stat _ _ _ := rfl
  harm _ _ _ _ := simulates_throw _
  heal _ _ _ := simulates_throw _
  cast _ _ _ := simulates_throw _
  inflict _ _ _ _ _ := simulates_throw _
  roll _ _ _ hst := hst ▸ ⟨rfl, rfl⟩

/-- `IF(CHANCE(50),HARM(STR,hero,STR,1),GET_PROP(hero,STR))`, where `STR` is a stat, a damage type
and whoever is hit. -/
def Expr.collision : Expr :=
  .call ⟨"IF", .exactly 3, .choose, [1, 2], []⟩
    [.call ⟨"CHANCE", .exactly 1, .chance, [], []⟩ [.leaf (.number 50)],
     .call ⟨"HARM", .exactly 4, .harm, [], [2]⟩
      [.leaf (.key "STR"), .leaf (.key "hero"), .leaf (.key "STR"), .leaf (.number 1)],
     .call ⟨"GET_PROP", .exactly 2, .stat, [], [1]⟩ [.leaf (.key "hero"), .leaf (.key "STR")]]

theorem confines_collision : Expr.collision.Confines {"STR"} := by
  simp [Expr.collision, Expr.Confines, Expr.ConfinesFrom, Function.namePositions]

theorem names_absorbed_collision :
    World.deserted.entityExists (.ofSeed 0) "STR" ≠
        (World.solitary "STR").entityExists (.ofSeed 0) "STR" ∧
      ∃ calls,
        (Expr.collision.program 0).run World.deserted (.ofSeed 0) =
          (calls, Expr.collision.resolve World.deserted (.ofSeed 0)) ∧
        (Expr.collision.program 0).run (World.solitary "STR") (.ofSeed 0) =
          (calls, Expr.collision.resolve (World.solitary "STR") (.ofSeed 0)) ∧
        SameEnd Eq Eq (Expr.collision.resolve World.deserted (.ofSeed 0))
          (Expr.collision.resolve (World.solitary "STR") (.ofSeed 0)) :=
  ⟨by decide, names_absorbed (agreesBut_solitary "STR") (by decide) confines_collision rfl⟩

end Skirmish.Formula
