import Skirmish.Formula.Reading

/-!
# Texts that are read in order

A definition has formulas in several of its fields, and some fields may be left out. The texts are
read in order, up to the first that cannot be read.

`ReadsInOrder v texts P x`: `x` is the result of reading the texts. It satisfies `P` if all of them
can be read, and is the fault of the first that cannot otherwise. The predicate is closed under the
ways in which texts are read one after the other.
-/

namespace Skirmish.Formula

namespace Vocabulary

/-- The text can be read. -/
def CanRead (v : Vocabulary) (text : String) : Prop := ∃ e, Expr.parse v text = .ok e

/-- The first of the texts that cannot be read is at fault, and this is the fault. -/
def FirstFault (v : Vocabulary) (texts : List String) (cause : ParseError) : Prop :=
  ∃ before text after, texts = before ++ text :: after ∧ (∀ t ∈ before, v.CanRead t) ∧
    Expr.parse v text = .error cause

/-- What reading the texts in order gives. -/
inductive ReadsInOrder {α : Type} (v : Vocabulary) (texts : List String) (P : α → Prop) :
    Except ParseError α → Prop
  | ok {a : α} (readable : ∀ text ∈ texts, v.CanRead text) (result : P a) :
    ReadsInOrder v texts P (.ok a)
  | error {cause : ParseError} (fault : v.FirstFault texts cause) :
    ReadsInOrder v texts P (.error cause)

variable {α β : Type} {v : Vocabulary} {texts more : List String} {cause : ParseError}

theorem FirstFault.not_canRead (h : v.FirstFault texts cause) :
    ¬∀ text ∈ texts, v.CanRead text := by
  obtain ⟨before, text, after, rfl, -, hfault⟩ := h
  intro readable
  obtain ⟨e, he⟩ := readable text (List.mem_append_right before List.mem_cons_self)
  rw [hfault] at he
  cases he

/-- The first fault stays the first, whatever comes behind. -/
theorem FirstFault.append (h : v.FirstFault texts cause) (more : List String) :
    v.FirstFault (texts ++ more) cause := by
  obtain ⟨before, text, after, rfl, readable, hfault⟩ := h
  exact ⟨before, text, after ++ more, List.append_assoc .., readable, hfault⟩

/-- Behind texts that can be read, the first fault is the first of all. -/
theorem FirstFault.behind (readable : ∀ text ∈ texts, v.CanRead text)
    (h : v.FirstFault more cause) : v.FirstFault (texts ++ more) cause := by
  obtain ⟨before, text, after, rfl, hbefore, hfault⟩ := h
  refine ⟨texts ++ before, text, after, (List.append_assoc ..).symm, fun t ht => ?_, hfault⟩
  exact (List.mem_append.1 ht).elim (readable t) (hbefore t)

namespace ReadsInOrder

variable {P : α → Prop} {Q : β → Prop} {x : Except ParseError α} {a : α}

theorem of_ok (h : v.ReadsInOrder texts P x) (hx : x = .ok a) :
    (∀ text ∈ texts, v.CanRead text) ∧ P a := by
  cases h with
  | ok readable result =>
    cases hx
    exact ⟨readable, result⟩
  | error fault => cases hx

theorem of_error (h : v.ReadsInOrder texts P x) (hx : x = .error cause) :
    v.FirstFault texts cause := by
  cases h with
  | ok => cases hx
  | error fault =>
    cases hx
    exact fault

/-- Reading succeeds if and only if all texts can be read. -/
theorem exists_ok_iff (h : v.ReadsInOrder texts P x) :
    (∃ a, x = .ok a) ↔ ∀ text ∈ texts, v.CanRead text := by
  cases h with
  | ok readable => exact ⟨fun _ => readable, fun _ => ⟨_, rfl⟩⟩
  | error fault => exact ⟨nofun, fun readable => absurd readable fault.not_canRead⟩

theorem bind (h : v.ReadsInOrder texts P x) {k : α → Except ParseError β}
    (hk : ∀ a, P a → v.ReadsInOrder more Q (k a)) :
    v.ReadsInOrder (texts ++ more) Q (x >>= k) := by
  cases h with
  | error fault => exact .error (fault.append more)
  | @ok a readable result =>
    show v.ReadsInOrder (texts ++ more) Q (k a)
    have hrest := hk a result
    generalize k a = y at hrest
    cases hrest with
    | error fault => exact .error (fault.behind readable)
    | ok hmore result => exact .ok (List.forall_mem_append.2 ⟨readable, hmore⟩) result

/-- What is made of the result needs no more texts. -/
theorem map (h : v.ReadsInOrder texts P x) {f : α → β} (hf : ∀ a, P a → Q (f a)) :
    v.ReadsInOrder texts Q (x >>= fun a => pure (f a)) := by
  cases h with
  | ok readable result => exact .ok readable (hf _ result)
  | error fault => exact .error fault

end ReadsInOrder

/-! ## Fields -/

/-- A formula. -/
theorem readsInOrder_parse (v : Vocabulary) (text : String) :
    v.ReadsInOrder [text] (fun e => Expr.parse v text = .ok e) (Expr.parse v text) := by
  cases h : Expr.parse v text with
  | ok e => exact .ok (fun t ht => List.mem_singleton.1 ht ▸ ⟨e, h⟩) rfl
  | error cause => exact .error ⟨[], text, [], rfl, nofun, h⟩

/-- A formula that may be left out. -/
theorem readsInOrder_option (v : Vocabulary) (text? : Option String) :
    v.ReadsInOrder text?.toList (fun formula => text?.map (Expr.parse v) = formula.map .ok)
      (text?.mapM (Expr.parse v)) := by
  cases text? with
  | none => exact .ok nofun rfl
  | some text => exact (readsInOrder_parse v text).map fun e he => congrArg some he

/-- A list of formulas. -/
theorem readsInOrder_list (v : Vocabulary) (texts : List String) :
    v.ReadsInOrder texts (fun formulas => texts.map (Expr.parse v) = formulas.map .ok)
      (texts.mapM (Expr.parse v)) := by
  induction texts with
  | nil => exact .ok nofun rfl
  | cons text rest ih =>
    rw [List.mapM_cons]
    show v.ReadsInOrder ([text] ++ rest) _ _
    exact (readsInOrder_parse v text).bind fun e he => ih.map fun es hes => by
      rw [List.map_cons, List.map_cons, he, hes]

end Vocabulary

end Skirmish.Formula
