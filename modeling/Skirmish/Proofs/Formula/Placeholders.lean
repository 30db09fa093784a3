import Mathlib.Data.List.Forall2
import Mathlib.Data.Nat.Digits.Defs
import Skirmish.Proofs.Formula.Substitution

/-!
# Numbered placeholders

A numbered placeholder is `$` and an index in decimal. Binding puts a number in place of each one,
or refuses the first that has no value. Indices are read into 64 bits: a placeholder with a greater
one is no placeholder to the program, which leaves it standing.

1. `Over`: expressions with the same inner nodes, leaf by leaf.
2. `placeholderIndex?_eq_some`: the indices that are read.
3. `bindArguments_outcome`: what binding comes to, and when that is what it should be.
-/

namespace Skirmish.Formula

/-! ## Placeholders -/

/-- The number that ASCII digits denote in decimal. -/
def decimal (digits : List Char) : Nat := Nat.ofDigits 10 (digits.reverse.map Decimal.digitValue)

/-- The text is `$` with one or more ASCII digits, and these denote `i`. -/
def Numbered (text : String) (i : Nat) : Prop :=
  ∃ digits, text.toList = '$' :: digits ∧ digits ≠ [] ∧ (∀ c ∈ digits, c.isDigit = true) ∧
    decimal digits = i

/-- A numbered placeholder with an index of 64 bits. -/
def Numbered64 (text : String) (i : Nat) : Prop := Numbered text i ∧ i < UInt64.size

theorem digitsValue_eq (acc : Nat) (cs : List Char) :
    Decimal.digitsValue acc cs =
      Nat.ofDigits 10 (cs.reverse.map Decimal.digitValue ++ [acc]) := by
  induction cs generalizing acc with
  | nil => exact Nat.ofDigits_singleton.symm
  | cons c cs ih =>
    have hlast : Nat.ofDigits 10 [10 * acc + Decimal.digitValue c] =
        Nat.ofDigits 10 [Decimal.digitValue c, acc] := by
      rw [Nat.ofDigits_singleton, Nat.ofDigits_cons, Nat.ofDigits_singleton, Nat.add_comm]
    refine (ih _).trans ?_
    rw [List.reverse_cons, List.map_append, List.append_assoc, Nat.ofDigits_append,
      Nat.ofDigits_append, hlast]
    rfl

theorem digitsValue_zero (cs : List Char) : Decimal.digitsValue 0 cs = decimal cs := by
  rw [digitsValue_eq, Nat.ofDigits_append, Nat.ofDigits_singleton, Nat.mul_zero, Nat.add_zero]
  rfl

/-- The indices that are read are those of 64 bits. -/
theorem placeholderIndex?_eq_some {name : String} {i : Nat} :
    placeholderIndex? name = some i ↔ Numbered64 name i := by
  unfold placeholderIndex? Numbered64 Numbered
  split
  · next digits htext =>
    rw [Decimal.nat?, digitsValue_zero, Option.filter_eq_some_iff]
    constructor
    · rintro ⟨hread, hsmall⟩
      split at hread
      · cases hread
      · next hdigits =>
        simp only [List.isEmpty_iff, Bool.not_eq_true', not_or, Bool.not_eq_false,
          List.all_eq_true] at hdigits
        exact ⟨⟨digits, htext, hdigits.1, hdigits.2, Option.some.inj hread⟩,
          of_decide_eq_true hsmall⟩
    · rintro ⟨⟨digits', htext', hne, hdigits, hdecimal⟩, hsmall⟩
      obtain rfl : digits = digits' := (List.cons.inj (htext.symm.trans htext')).2
      refine ⟨?_, decide_eq_true hsmall⟩
      rw [if_neg, hdecimal]
      simpa [hne] using hdigits
  · next htext =>
    refine iff_of_false nofun ?_
    rintro ⟨⟨digits, hdigits, -⟩, -⟩
    exact htext digits hdigits

theorem Numbered.unique {name : String} {i j : Nat} (hi : Numbered name i) (hj : Numbered name j) :
    i = j := by
  obtain ⟨digits, htext, -, -, rfl⟩ := hi
  obtain ⟨digits', htext', -, -, rfl⟩ := hj
  rw [(List.cons.inj (htext.symm.trans htext')).2]

/-! ## Leaves -/

namespace Expr

mutual

/-- The values at the leaves, from left to right. -/
def leaves : Expr → List Value
  | leaf v => [v]
  | apply _ operands => leavesEach operands
  | call _ arguments => leavesEach arguments

/-- The leaves of expressions, one after the other. -/
def leavesEach : List Expr → List Value
  | [] => []
  | e :: rest => leaves e ++ leavesEach rest

end

mutual

/-- Two expressions with the same inner nodes and related leaves. -/
inductive Over (R : Value → Value → Prop) : Expr → Expr → Prop
  | leaf {v w : Value} : R v w → Over R (leaf v) (leaf w)
  | apply {op : Operator} {es rs : List Expr} :
    OverEach R es rs → Over R (apply op es) (apply op rs)
  | call {f : Function} {es rs : List Expr} : OverEach R es rs → Over R (call f es) (call f rs)

/-- `Over`, one expression after the other. -/
inductive OverEach (R : Value → Value → Prop) : List Expr → List Expr → Prop
  | nil : OverEach R [] []
  | cons {e r : Expr} {es rs : List Expr} : Over R e r → OverEach R es rs →
    OverEach R (e :: es) (r :: rs)

end

/-! ## What is expected -/

section Outcome

/-! `P` tells which keys are placeholders, and for which index. -/

variable (P : String → Nat → Prop) (values : List Float)

/-- What becomes of a leaf: the placeholder of an index is the value there, anything else stays. -/
inductive Filled : Value → Value → Prop
  | placeholder {name : String} {i : Nat} {x : Float} :
    P name i → values[i]? = some x → Filled (.key name) (.number x)
  | other {v : Value} : (∀ name i, v = .key name → ¬P name i) → Filled v v

/-- A placeholder without a value. -/
def Unbound (name : String) : Prop := ∃ i, P name i ∧ values.length ≤ i

/-- The leftmost placeholder without a value. -/
def FirstUnbound (e : Expr) (name : String) : Prop :=
  ∃ before after, e.leaves = before ++ .key name :: after ∧ Unbound P values name ∧
    ∀ other, .key other ∈ before → ¬Unbound P values other

/-- What binding comes to: with a value for every placeholder all of them are filled and none is
left, otherwise the leftmost one without a value is reported. -/
inductive Outcome (e : Expr) : Except EvalError Expr → Prop
  | filled {r : Expr} : (∀ name, .key name ∈ e.leaves → ¬Unbound P values name) →
    Over (Filled P values) e r → (∀ name i, .key name ∈ r.leaves → ¬P name i) → Outcome e (.ok r)
  | refused {name : String} : FirstUnbound P values e name →
    Outcome e (.error (.unknownPlaceholder name values.length))

end Outcome

/-! ## Expressions leaf by leaf -/

section Leaves

variable {R S : Value → Value → Prop}

/-- The key at a leaf. -/
def key? : Value → Option String
  | .key name => some name
  | _ => none

theorem key?_eq_some {v : Value} {name : String} : key? v = some name ↔ v = .key name := by
  cases v <;> simp [key?]

/-- The key at a visit. -/
def visitKey? : Expr × Option Slot → Option String
  | (leaf v, _) => key? v
  | _ => none

mutual

theorem filterMap_visits (slot : Option Slot) :
    ∀ e : Expr, (e.visits slot).filterMap visitKey? = e.leaves.filterMap key?
  | .leaf v => by
    rw [visits, leaves]
    rfl
  | .apply op operands => by
    rw [visits, leaves, List.filterMap_append, filterMap_visitsOfOperands operands]
    exact List.append_nil _
  | .call f arguments => by
    rw [visits, leaves, List.filterMap_append, filterMap_visitsOfArguments f 0 arguments]
    exact List.append_nil _

theorem filterMap_visitsOfOperands :
    ∀ es : List Expr, (visitsOfOperands es).filterMap visitKey? =
      (leavesEach es).filterMap key?
  | [] => rfl
  | e :: rest => by
    rw [visitsOfOperands, leavesEach, List.filterMap_append, List.filterMap_append,
      filterMap_visits none e, filterMap_visitsOfOperands rest]

theorem filterMap_visitsOfArguments (f : Function) (i : Nat) :
    ∀ es : List Expr, (visitsOfArguments f i es).filterMap visitKey? =
      (leavesEach es).filterMap key?
  | [] => rfl
  | e :: rest => by
    rw [visitsOfArguments, leavesEach, List.filterMap_append, List.filterMap_append,
      filterMap_visits (some ⟨f, i⟩) e, filterMap_visitsOfArguments f (i + 1) rest]

end

theorem keys_eq (e : Expr) : e.keys = e.leaves.filterMap key? := by
  rw [← filterMap_visits none e, keys]
  congr 1
  funext ⟨e, _⟩
  rcases e with (_ | _ | _ | _ | _ | _ | _ | _ | _) | _ | _ <;> rfl

mutual

theorem Over.leaves : ∀ {e r : Expr}, Over R e r → List.Forall₂ R e.leaves r.leaves
  | _, _, .leaf h => .cons h .nil
  | _, _, .apply h => h.leaves
  | _, _, .call h => h.leaves

theorem OverEach.leaves :
    ∀ {es rs : List Expr}, OverEach R es rs → List.Forall₂ R (leavesEach es) (leavesEach rs)
  | _, _, .nil => .nil
  | _, _, .cons h hs => List.rel_append h.leaves hs.leaves

end

mutual

/-- What is related leaf by leaf is so by any relation that holds there as well. -/
theorem Over.imp : ∀ {e r : Expr}, Over R e r → (∀ v ∈ e.leaves, ∀ w, R v w → S v w) → Over S e r
  | _, _, .leaf hr, h => .leaf (h _ (List.mem_singleton.2 rfl) _ hr)
  | _, _, .apply hr, h => .apply (hr.imp h)
  | _, _, .call hr, h => .call (hr.imp h)

theorem OverEach.imp : ∀ {es rs : List Expr}, OverEach R es rs →
    (∀ v ∈ leavesEach es, ∀ w, R v w → S v w) → OverEach S es rs
  | _, _, .nil, _ => .nil
  | _, _, .cons hr hrs, h =>
    .cons (hr.imp fun v hv => h v (List.mem_append_left _ hv))
      (hrs.imp fun v hv => h v (List.mem_append_right _ hv))

end

mutual

/-- A substitution that puts values in place of keys goes leaf by leaf. -/
theorem over_substitute (f : Option Slot → String → Option Expr) (slot : Option Slot) :
    ∀ e : Expr, (∀ v ∈ e.leaves, ∀ slot, ∃ w, (leaf v).substitute f slot = leaf w ∧ R v w) →
      Over R e (e.substitute f slot)
  | .leaf v, h => by
    obtain ⟨w, hw, hr⟩ := h v (List.mem_singleton.2 rfl) slot
    rw [hw]
    exact .leaf hr
  | .apply op operands, h => by
    rw [substitute]
    exact .apply (overEach_substituteOperands f operands h)
  | .call g arguments, h => by
    rw [substitute]
    exact .call (overEach_substituteArguments f g 0 arguments h)

theorem overEach_substituteOperands (f : Option Slot → String → Option Expr) :
    ∀ es : List Expr,
      (∀ v ∈ leavesEach es, ∀ slot, ∃ w, (leaf v).substitute f slot = leaf w ∧ R v w) →
      OverEach R es (substituteOperands f es)
  | [], _ => by
    rw [substituteOperands]
    exact .nil
  | e :: rest, h => by
    rw [substituteOperands]
    exact .cons (over_substitute f none e fun v hv => h v (List.mem_append_left _ hv))
      (overEach_substituteOperands f rest fun v hv => h v (List.mem_append_right _ hv))

theorem overEach_substituteArguments (f : Option Slot → String → Option Expr) (g : Function)
    (i : Nat) : ∀ es : List Expr,
      (∀ v ∈ leavesEach es, ∀ slot, ∃ w, (leaf v).substitute f slot = leaf w ∧ R v w) →
      OverEach R es (substituteArguments f g i es)
  | [], _ => by
    rw [substituteArguments]
    exact .nil
  | e :: rest, h => by
    rw [substituteArguments]
    exact .cons (over_substitute f (some ⟨g, i⟩) e fun v hv => h v (List.mem_append_left _ hv))
      (overEach_substituteArguments f g (i + 1) rest fun v hv => h v (List.mem_append_right _ hv))

end

/-- Where two relations hold between the same leaves, each leaf has a partner by both. -/
theorem exists_partner {l m : List Value} (hr : List.Forall₂ R l m) (hs : List.Forall₂ S l m) :
    ∀ v ∈ l, ∃ w, R v w ∧ S v w := by
  induction hr with
  | nil => exact nofun
  | cons h _ ih =>
    cases hs with
    | cons h' hs' =>
      rintro v (_ | ⟨_, hv⟩)
      · exact ⟨_, h, h'⟩
      · exact ih hs' v hv

theorem exists_origin {l m : List Value} (hr : List.Forall₂ R l m) : ∀ w ∈ m, ∃ v, R v w := by
  induction hr with
  | nil => exact nofun
  | cons h _ ih =>
    rintro w (_ | ⟨_, hw⟩)
    · exact ⟨_, h⟩
    · exact ih w hw

end Leaves

/-! ## Bindings -/

section Binding

variable {P Q : String → Nat → Prop} {values : List Float} {e r : Expr} {name : String}

/-- No placeholder is left where all are filled. -/
theorem no_placeholder_left (h : Over (Filled P values) e r) :
    ∀ name i, .key name ∈ r.leaves → ¬P name i := by
  intro name i hname
  obtain ⟨v, hv⟩ := exists_origin h.leaves _ hname
  cases hv with
  | other hother => exact hother name i rfl

/-- Notions of a placeholder that agree on the leaves fill them alike. -/
theorem filled_congr (h : ∀ name i, .key name ∈ e.leaves → (P name i ↔ Q name i))
    (hr : Over (Filled P values) e r) : Over (Filled Q values) e r := by
  refine hr.imp fun v hv w hw => ?_
  cases hw with
  | placeholder hp hx => exact .placeholder ((h _ _ hv).1 hp) hx
  | other hother =>
    exact .other fun name i hname hq => hother name i hname ((h _ _ (hname ▸ hv)).2 hq)

/-- They fill alike only if every placeholder by the one is a placeholder by the other. -/
theorem placeholder_of_filled (hp : Over (Filled P values) e r) (hq : Over (Filled Q values) e r)
    {i : Nat} (hname : .key name ∈ e.leaves) (hi : P name i) : ∃ j, Q name j := by
  obtain ⟨w, hpw, hqw⟩ := exists_partner hp.leaves hq.leaves _ hname
  cases hqw with
  | placeholder hq' => exact ⟨_, hq'⟩
  | other =>
    cases hpw with
    | other hother => exact absurd hi (hother name i rfl)

theorem exceeds_iff : exceeds values name = true ↔ Unbound Numbered64 values name := by
  unfold exceeds Unbound
  simp only [Option.any_eq_true, decide_eq_true_eq, placeholderIndex?_eq_some]

/-- The fault of binding is the leftmost placeholder without a value. -/
theorem find?_exceeds (e : Expr) (values : List Float) (name : String) :
    e.keys.find? (exceeds values) = some name ↔ FirstUnbound Numbered64 values e name := by
  rw [keys_eq, List.find?_filterMap, Option.bind_eq_some_iff]
  unfold FirstUnbound
  constructor
  · rintro ⟨v, hv, hname⟩
    obtain rfl := key?_eq_some.1 hname
    obtain ⟨hexceeds, before, after, hleaves, hbefore⟩ := List.find?_eq_some_iff_append.1 hv
    refine ⟨before, after, hleaves, exceeds_iff.1 hexceeds, fun other hother h => ?_⟩
    have := hbefore _ hother
    simp [key?, exceeds_iff.2 h] at this
  · rintro ⟨before, after, hleaves, hunbound, hbefore⟩
    refine ⟨.key name, List.find?_eq_some_iff_append.2
      ⟨exceeds_iff.2 hunbound, before, after, hleaves, fun v hv => ?_⟩, rfl⟩
    cases hkey : key? v with
    | none => rfl
    | some other =>
      obtain rfl := key?_eq_some.1 hkey
      simpa using mt exceeds_iff.1 (hbefore other hv)

/-- With a value for every placeholder all of them are filled. -/
theorem filled_bind (h : ∀ name, .key name ∈ e.leaves → ¬Unbound Numbered64 values name) :
    Over (Filled Numbered64 values) e (e.substitute (argumentBinding values) none) := by
  refine over_substitute _ none e fun v hv slot => ?_
  cases v with
  | key name =>
    rw [substitute_key, argumentBinding]
    cases hindex : placeholderIndex? name with
    | none =>
      refine ⟨_, rfl, .other fun name' i hname hi => ?_⟩
      obtain rfl := Value.key.inj hname
      rw [placeholderIndex?_eq_some.2 hi] at hindex
      cases hindex
    | some i =>
      have hi := placeholderIndex?_eq_some.1 hindex
      cases hx : values[i]? with
      | none => exact absurd ⟨i, hi, List.getElem?_eq_none_iff.1 hx⟩ (h name hv)
      | some x => exact ⟨.number x, by simp [hx], .placeholder hi hx⟩
  | _ => exact ⟨_, by rw [substitute]; exact nofun, .other nofun⟩

theorem firstUnbound_congr (h : ∀ name i, .key name ∈ e.leaves → (P name i ↔ Q name i))
    (hfirst : FirstUnbound P values e name) : FirstUnbound Q values e name := by
  obtain ⟨before, after, hleaves, ⟨i, hi, hlength⟩, hbefore⟩ := hfirst
  have hmem {other : String} (hother : .key other ∈ before) : .key other ∈ e.leaves := by
    rw [hleaves]
    exact List.mem_append_left _ hother
  refine ⟨before, after, hleaves, ⟨i, (h name i (by simp [hleaves])).1 hi, hlength⟩, ?_⟩
  rintro other hother ⟨j, hj, hlength'⟩
  exact hbefore other hother ⟨j, (h other j (hmem hother)).2 hj, hlength'⟩

/-- A placeholder that is the first without a value is so among those with an index of 64 bits. -/
theorem firstUnbound64 {i : Nat} (hfirst : FirstUnbound Numbered values e name)
    (hi : Numbered64 name i) : FirstUnbound Numbered64 values e name := by
  obtain ⟨before, after, hleaves, ⟨j, hj, hlength⟩, hbefore⟩ := hfirst
  obtain rfl := hi.1.unique hj
  refine ⟨before, after, hleaves, ⟨i, hi, hlength⟩, ?_⟩
  rintro other hother ⟨k, hk, hlength'⟩
  exact hbefore other hother ⟨k, hk.1, hlength'⟩

/-- **Binding the arguments of a status.** Every placeholder with an index of 64 bits is filled, or
the leftmost one without a value is reported. Whatever the size of the indices, that is what should
come of it exactly if no placeholder has a greater index, or the leftmost one without a value has
none. -/
theorem bindArguments_outcome (values : List Float) (e : Expr) :
    Outcome Numbered64 values e (e.bindArguments values) ∧
    (Outcome Numbered values e (e.bindArguments values) ↔
      (∀ name i, .key name ∈ e.leaves → Numbered name i → i < UInt64.size) ∨
      ∃ name i, FirstUnbound Numbered values e name ∧ Numbered64 name i) := by
  have found := find?_exceeds e values
  have agree (h : ∀ name i, .key name ∈ e.leaves → Numbered name i → i < UInt64.size)
      (name : String) (i : Nat) (hname : .key name ∈ e.leaves) :
      Numbered64 name i ↔ Numbered name i :=
    ⟨And.left, fun hi => ⟨hi, h name i hname hi⟩⟩
  unfold bindArguments
  cases hfind : e.keys.find? (exceeds values) with
  | some name =>
    have hfirst := (found name).1 hfind
    refine ⟨.refused hfirst, ?_, ?_⟩
    · rintro (_ | hfirst')
      obtain ⟨_, _, _, ⟨i, hi, _⟩, _⟩ := hfirst
      exact .inr ⟨name, i, hfirst', hi⟩
    · rintro (hsmall | ⟨name', i, hfirst', hi⟩)
      · exact .refused (firstUnbound_congr (agree hsmall) hfirst)
      · obtain rfl : name = name' := by
          have hfind' := (found name').2 (firstUnbound64 hfirst' hi)
          exact Option.some.inj (hfind.symm.trans hfind')
        exact .refused hfirst'
  | none =>
    have hbound : ∀ name, .key name ∈ e.leaves → ¬Unbound Numbered64 values name := by
      intro name hname hunbound
      have hkey : name ∈ e.keys := by
        rw [keys_eq]
        exact List.mem_filterMap.2 ⟨_, hname, rfl⟩
      exact List.find?_eq_none.1 hfind name hkey (exceeds_iff.2 hunbound)
    have hfilled := filled_bind hbound
    refine ⟨.filled hbound hfilled (no_placeholder_left hfilled), ?_, ?_⟩
    · rintro (⟨-, hfilled', -⟩ | _)
      refine .inl fun name i hname hi => ?_
      obtain ⟨j, hj⟩ := placeholder_of_filled hfilled' hfilled hname hi
      rw [hi.unique hj.1]
      exact hj.2
    · rintro (hsmall | ⟨name, i, hfirst, hi⟩)
      · have hfilled' := filled_congr (agree hsmall) hfilled
        refine .filled (fun name hname => ?_) hfilled' (no_placeholder_left hfilled')
        rintro ⟨i, hi, hlength⟩
        exact hbound name hname ⟨i, (agree hsmall name i hname).2 hi, hlength⟩
      · rw [(found name).2 (firstUnbound64 hfirst hi)] at hfind
        cases hfind

end Binding

/-- The placeholder of 2⁶⁴ is left standing. -/
theorem bindArguments_overflow :
    ¬Outcome Numbered [] (leaf (.key "$18446744073709551616"))
      ((leaf (.key "$18446744073709551616")).bindArguments []) := by
  have hbind : (leaf (.key "$18446744073709551616")).bindArguments [] =
      .ok (leaf (.key "$18446744073709551616")) := rfl
  have hnumbered : Numbered "$18446744073709551616" (2 ^ 64) :=
    ⟨"18446744073709551616".toList, rfl, by decide, List.all_eq_true.1 (by decide), by decide⟩
  rw [hbind]
  rintro (⟨-, -, hnone⟩ | _)
  exact hnone _ _ (List.mem_singleton.2 rfl) hnumbered

end Expr

end Skirmish.Formula
