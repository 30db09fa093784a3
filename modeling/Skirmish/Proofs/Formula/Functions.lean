import Skirmish.Formula.Binding
import Skirmish.Proofs.Formula.Grammar
import Skirmish.Proofs.Formula.Keeping

/-!
# The functions in an expression

`Expr.functions` lists the functions that an expression calls.

1. `forall_functions_substitute`: a substitution adds no functions but those that it puts in. A
   binding puts in none but the one that reads stats, so what holds of the functions of a vocabulary
   and of those in a formula holds of those in the bound formula.
2. `mem_functions_of_parse`: what is read with a vocabulary calls functions of the vocabulary.
-/

namespace Skirmish.Formula

namespace Expr

mutual

/-- The functions in an expression, from left to right. -/
def functions : Expr → List Function
  | leaf (.function f) => [f]
  | leaf _ => []
  | apply _ operands => functionsOfEach operands
  | call f arguments => f :: functionsOfEach arguments

/-- The functions in some expressions. -/
def functionsOfEach : List Expr → List Function
  | [] => []
  | e :: rest => e.functions ++ functionsOfEach rest

end

/-! ## Functions after a binding -/

section Bindings

variable {p : Function → Prop} {f : Option Slot → String → Option Expr}

mutual

/-- What holds of the functions in an expression and of those that are put in holds of all functions
after a substitution. -/
theorem forall_functions_substitute
    (hf : ∀ slot name x, f slot name = some x → ∀ g ∈ x.functions, p g) (slot : Option Slot) :
    ∀ e : Expr, (∀ g ∈ e.functions, p g) → ∀ g ∈ (e.substitute f slot).functions, p g
  | leaf v, h => by
    cases v with
    | key name =>
      rw [substitute]
      cases hx : f slot name with
      | none => exact h
      | some x => exact hf slot name x hx
    | _ => simpa only [substitute] using h
  | apply op operands, h => by
    rw [substitute, functions]
    exact forall_functions_substituteOperands hf operands h
  | call g arguments, h => by
    rw [functions, List.forall_mem_cons] at h
    rw [substitute, functions, List.forall_mem_cons]
    exact ⟨h.1, forall_functions_substituteArguments hf g 0 arguments h.2⟩

theorem forall_functions_substituteOperands
    (hf : ∀ slot name x, f slot name = some x → ∀ g ∈ x.functions, p g) :
    ∀ es : List Expr, (∀ g ∈ functionsOfEach es, p g) →
      ∀ g ∈ functionsOfEach (substituteOperands f es), p g
  | [], _ => nofun
  | e :: rest, h => by
    rw [functionsOfEach, List.forall_mem_append] at h
    rw [substituteOperands, functionsOfEach, List.forall_mem_append]
    exact ⟨forall_functions_substitute hf none e h.1,
      forall_functions_substituteOperands hf rest h.2⟩

theorem forall_functions_substituteArguments
    (hf : ∀ slot name x, f slot name = some x → ∀ g ∈ x.functions, p g) (h : Function) (i : Nat) :
    ∀ es : List Expr, (∀ g ∈ functionsOfEach es, p g) →
      ∀ g ∈ functionsOfEach (substituteArguments f h i es), p g
  | [], _ => nofun
  | e :: rest, hes => by
    rw [functionsOfEach, List.forall_mem_append] at hes
    rw [substituteArguments, functionsOfEach, List.forall_mem_append]
    exact ⟨forall_functions_substitute hf (some ⟨h, i⟩) e hes.1,
      forall_functions_substituteArguments hf h (i + 1) rest hes.2⟩

end

/-- Leaves other than functions put in no functions. -/
theorem forall_functions_leaf {v : Value} (hv : ∀ f, v ≠ .function f) :
    ∀ g ∈ (leaf v).functions, p g := by
  cases v with
  | function f => exact absurd rfl (hv f)
  | _ => exact nofun

variable {v : Vocabulary} {e : Expr}

theorem forall_functions_bindRoles (source target : String) (he : ∀ g ∈ e.functions, p g) :
    ∀ g ∈ (e.bindRoles source target).functions, p g := by
  refine forall_functions_substitute (fun _ name x hx => ?_) none e he
  split at hx
  · cases hx
    exact forall_functions_leaf nofun
  · split at hx
    · cases hx
      exact forall_functions_leaf nofun
    · cases hx

theorem forall_functions_bindAmount (amount : Float) (he : ∀ g ∈ e.functions, p g) :
    ∀ g ∈ (e.bindAmount amount).functions, p g := by
  refine forall_functions_substitute (fun _ name x hx => ?_) none e he
  split at hx
  · cases hx
    exact forall_functions_leaf nofun
  · cases hx

theorem forall_functions_bindStats (hv : ∀ f ∈ v.functions, p f) (hasStat : String → Bool)
    (entity : String) (he : ∀ g ∈ e.functions, p g) :
    ∀ g ∈ (e.bindStats v hasStat entity).functions, p g := by
  unfold bindStats
  split
  · exact he
  · next read found =>
    have hread : p read := hv read (List.mem_of_find?_eq_some found)
    refine forall_functions_substitute (fun _ name x hx => ?_) none e he
    split at hx
    · cases hx
    · cases hx
      simpa [functions, functionsOfEach] using hread

theorem forall_functions_bindSkill (hv : ∀ f ∈ v.functions, p f)
    (hasStat : String → String → Bool) (source target : String) (he : ∀ g ∈ e.functions, p g) :
    ∀ g ∈ (e.bindSkill v hasStat source target).functions, p g :=
  forall_functions_bindStats hv _ _ (forall_functions_bindRoles source target he)

theorem forall_functions_bindMitigation (hv : ∀ f ∈ v.functions, p f)
    (hasStat : String → String → Bool) (target source : String) (amount : Float)
    (he : ∀ g ∈ e.functions, p g) :
    ∀ g ∈ (e.bindMitigation v hasStat target source amount).functions, p g :=
  forall_functions_bindStats hv _ _ <| forall_functions_bindAmount amount <|
    forall_functions_bindRoles source target he

theorem forall_functions_bindStatus {source target : String} {values : List Float} {r : Expr}
    (h : e.bindStatus source target values = .ok r) (he : ∀ g ∈ e.functions, p g) :
    ∀ g ∈ r.functions, p g := by
  unfold bindStatus bindArguments at h
  split at h
  · cases h
  · injection h with h
    subst h
    refine forall_functions_substitute (fun _ name x hx => ?_) none _
      (forall_functions_bindRoles source target he)
    obtain ⟨i, -, hx⟩ := Option.bind_eq_some_iff.1 hx
    obtain ⟨y, -, hy⟩ := Option.bind_eq_some_iff.1 hx
    cases hy
    exact forall_functions_leaf nofun

end Bindings

end Expr

/-! ## Functions in what is read -/

theorem mem_around_of_mem_flatten {op : Operator} {parts : List (List Value)} {v : Value}
    (h : v ∈ parts.flatten) : v ∈ around op parts := by
  unfold around
  split
  · rw [List.flatten_cons, List.flatten_cons, List.flatten_nil, List.append_nil] at h
    exact List.mem_append.2 ((List.mem_append.1 h).imp_right (.tail _))
  · exact .tail _ h

mutual

theorem Expr.mem_inOrder_of_mem_functions {f : Function} :
    ∀ e : Expr, f ∈ e.functions → Value.function f ∈ e.inOrder
  | .leaf v, h => by
    cases v with
    | function g =>
      cases List.mem_singleton.1 h
      exact List.mem_singleton.2 rfl
    | _ => cases h
  | .apply op operands, h =>
    mem_around_of_mem_flatten (Expr.mem_inOrderEach_of_mem_functions operands h)
  | .call g arguments, h => by
    rcases List.mem_cons.1 h with rfl | h
    · exact .head _
    · exact .tail _ (Expr.mem_inOrderEach_of_mem_functions arguments h)

theorem Expr.mem_inOrderEach_of_mem_functions {f : Function} :
    ∀ es : List Expr, f ∈ Expr.functionsOfEach es →
      Value.function f ∈ (Expr.inOrderEach es).flatten
  | [], h => by cases h
  | e :: rest, h => by
    rw [Expr.inOrderEach, List.flatten_cons]
    exact List.mem_append.2 ((List.mem_append.1 h).imp (Expr.mem_inOrder_of_mem_functions e)
      (Expr.mem_inOrderEach_of_mem_functions rest))

end

/-- The tokens are what the vocabulary makes of some texts. -/
def Classified (v : Vocabulary) (tokens : List Token) : Prop :=
  ∀ t ∈ tokens, ∃ text, t = Token.classify v text

theorem Classified.cons {v : Vocabulary} {tokens : List Token} (h : Classified v tokens)
    (text : String) : Classified v (Token.classify v text :: tokens) :=
  List.forall_mem_cons.2 ⟨⟨text, rfl⟩, h⟩

theorem classified_ofRun (v : Vocabulary) (run : List Char) : Classified v (Token.ofRun v run) := by
  have hnil : Classified v [] := nofun
  unfold Token.ofRun
  split
  · exact hnil
  · dsimp only
    split
    · exact hnil.cons _
    · split
      · exact (hnil.cons _).cons _
      · exact ((hnil.cons _).cons _).cons _
  · exact hnil.cons _

theorem classified_scan {v : Vocabulary} {last? : Option Token} {run cs : List Char}
    {tokens : List Token} (h : Token.scan v last? run cs = .ok tokens) : Classified v tokens := by
  induction cs generalizing last? run tokens with
  | nil =>
    cases h
    exact classified_ofRun v run
  | cons c cs ih =>
    have hrun := classified_ofRun v run
    -- Whatever is split off in front of the rest is classified.
    have hmap {g : List Token → List Token} {last? : Option Token} {run : List Char}
        (hg : ∀ ts, Classified v ts → Classified v (g ts))
        (h : g <$> Token.scan v last? run cs = .ok tokens) : Classified v tokens := by
      cases hx : Token.scan v last? run cs with
      | error e => rw [hx] at h; cases h
      | ok ts =>
        rw [hx] at h
        cases h
        exact hg ts (ih hx)
    rw [Token.scan] at h
    split at h
    · exact ih h
    · dsimp only at h
      split at h
      · split at h
        · cases h
        · split at h
          · cases h
          · exact hmap (fun ts hts => List.forall_mem_append.2 ⟨hrun, hts.cons _⟩) h
          · exact hmap (fun ts hts => List.forall_mem_append.2 ⟨hrun, hts.cons _⟩) h
          · exact hmap (fun ts hts => List.forall_mem_append.2 ⟨hrun, hts⟩) h
      · exact hmap (fun ts hts => List.forall_mem_append.2 ⟨hrun, hts.cons _⟩) h

theorem mem_functions_of_classify {v : Vocabulary} {text : String} {f : Function}
    (h : Token.classify v text = .function f) : f ∈ v.functions := by
  unfold Token.classify at h
  split at h
  · next found =>
    cases h
    exact List.mem_of_find?_eq_some found
  · split at h
    · cases h
    · split at h
      · cases h
      · split at h
        · cases h
        · split at h <;> cases h

theorem literal_ne_function (name : String) (f : Function) : Expr.literal name ≠ .function f := by
  intro h
  unfold Expr.literal at h
  dsimp only at h
  split at h <;> split at h
  · split at h <;> cases h
  · cases h
  · split at h <;> cases h
  · cases h

/-- What a text is read as is read in a run of tokens that the vocabulary classified. -/
theorem exists_reads_of_parse {v : Vocabulary} {text : String} {e : Expr}
    (h : Expr.parse v text = .ok e) :
    ∃ tokens, Classified v tokens ∧ Reads none .start [] tokens e := by
  obtain ⟨tokens, htokens, hread⟩ := exists_of_bind_eq_ok h
  refine ⟨tokens, ?_, ofTokens_eq_ok_iff.1 hread⟩
  unfold tokenize at htokens
  dsimp only at htokens
  split at htokens
  · cases htokens
  · exact classified_scan htokens

/-- The functions in what is read with a vocabulary are functions of the vocabulary. -/
theorem mem_functions_of_parse {v : Vocabulary} {text : String} {e : Expr}
    (h : Expr.parse v text = .ok e) : ∀ f ∈ e.functions, f ∈ v.functions := by
  intro f hf
  obtain ⟨tokens, hclassified, hreads⟩ := exists_reads_of_parse h
  have hvalue := e.mem_inOrder_of_mem_functions hf
  rw [hreads.inOrder_eq] at hvalue
  obtain ⟨t, ht, hvalue⟩ := List.mem_filterMap.1 hvalue
  obtain ⟨text, hclassify⟩ := hclassified t ht
  cases t with
  | word name =>
    exact absurd (Option.some.inj hvalue) (literal_ne_function name f)
  | function g =>
    cases hvalue
    exact mem_functions_of_classify hclassify.symm
  | _ => cases hvalue

end Skirmish.Formula
