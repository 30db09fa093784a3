import Skirmish.Proofs.Formula.Stepping

/-!
# Where faults of reading are

1. `Balanced` says that brackets match, apart from any reader, and `Partners` which bracket closes
   which.
2. `Run.opens`: the open brackets of a reader are those of the tokens behind it that have no
   partner there, in their order.
3. `Run.endsAt`: where a reader stops because nothing more can follow, the tokens behind it build,
   and no more of the tokens do.
4. `Truthful` is what a fault says of the token at its position. A fault with a position comes from
   one of three kinds of places, and is truthful there (`truthful_of_refused`). So the position in a
   fault is that of a token, and that token is to blame (`faults_located`).
-/

namespace Skirmish.Formula

/-! ## Brackets that match -/

/-- The brackets among the tokens match. -/
inductive Balanced : List Token → Prop
  | nil : Balanced []
  | other {t : Token} {rest : List Token} (opening : t ≠ .leftParen) (closing : t ≠ .rightParen)
      (behind : Balanced rest) : Balanced (t :: rest)
  | pair {inner rest : List Token} (inside : Balanced inner) (behind : Balanced rest) :
      Balanced (.leftParen :: (inner ++ .rightParen :: rest))

/-- A bracket opens at `i` and closes at `j`: the brackets between them match. -/
def Partners (tokens : List Token) (i j : Nat) : Prop :=
  ∃ before inner rest, tokens = before ++ .leftParen :: (inner ++ .rightParen :: rest) ∧
    Balanced inner ∧ before.length = i ∧ i + inner.length + 1 = j

/-- There is a bracket at `p`, and no other bracket is its partner. -/
def Unmatched (tokens : List Token) (p : Nat) : Prop :=
  (tokens[p]? = some .leftParen ∨ tokens[p]? = some .rightParen) ∧
    ∀ q, ¬Partners tokens p q ∧ ¬Partners tokens q p

theorem Partners.opening {tokens : List Token} {i j : Nat} (h : Partners tokens i j) :
    tokens[i]? = some .leftParen := by
  obtain ⟨before, inner, rest, rfl, -, rfl, -⟩ := h
  simp

theorem Partners.closing {tokens : List Token} {i j : Nat} (h : Partners tokens i j) :
    tokens[j]? = some .rightParen := by
  obtain ⟨before, inner, rest, rfl, -, rfl, rfl⟩ := h
  have split : before ++ .leftParen :: (inner ++ .rightParen :: rest) =
      (before ++ .leftParen :: inner) ++ .rightParen :: rest := by simp
  have place : before.length + inner.length + 1 = (before ++ .leftParen :: inner).length := by
    rw [List.length_append, List.length_cons, Nat.add_assoc]
  rw [split, place]
  simp

/-- How many brackets are open after a token, before which `n` are. A bracket closes only an open
one. -/
def Token.turn (n : Nat) : Token → Option Nat
  | leftParen => some (n + 1)
  | rightParen => if n = 0 then none else some (n - 1)
  | word _ | operator _ | function _ | separator => some n

theorem turn_other {n : Nat} {t : Token} (opening : t ≠ .leftParen) (closing : t ≠ .rightParen) :
    t.turn n = some n := by
  cases t with
  | leftParen => exact absurd rfl opening
  | rightParen => exact absurd rfl closing
  | _ => rfl

namespace Balanced

variable {l l' : List Token}

theorem append (h : Balanced l) (h' : Balanced l') : Balanced (l ++ l') := by
  induction h with
  | nil => exact h'
  | other opening closing _ ih => exact .other opening closing ih
  | @pair inner rest inside _ _ ih =>
    have whole : Balanced (.leftParen :: (inner ++ .rightParen :: (rest ++ l'))) := .pair inside ih
    rwa [List.cons_append, List.append_assoc, List.cons_append]

/-- Tokens whose brackets match leave the number of open brackets as it was. -/
theorem foldlM_turn (h : Balanced l) (n : Nat) : l.foldlM Token.turn n = some n := by
  induction h generalizing n with
  | nil => rfl
  | other opening closing _ ih =>
    rw [List.foldlM_cons, turn_other opening closing]
    exact ih n
  | @pair inner rest _ _ inside behind =>
    calc (Token.leftParen :: (inner ++ .rightParen :: rest)).foldlM Token.turn n
        = (inner ++ .rightParen :: rest).foldlM Token.turn (n + 1) := rfl
      _ = (Token.rightParen :: rest).foldlM Token.turn (n + 1) := by
        rw [List.foldlM_append, inside]
        rfl
      _ = rest.foldlM Token.turn n := rfl
      _ = some n := behind n

/-- The brackets do not match where one closes behind brackets that do. -/
theorem not_closed (h : Balanced l) : ¬Balanced (l ++ .rightParen :: l') := by
  intro whole
  have count := whole.foldlM_turn 0
  rw [List.foldlM_append, h.foldlM_turn] at count
  cases count

/-- Nor where one opens in front of brackets that do. -/
theorem not_opened (h : Balanced l') : ¬Balanced (l ++ .leftParen :: l') := by
  intro whole
  have count := whole.foldlM_turn 0
  rw [List.foldlM_append] at count
  obtain ⟨n, -, count⟩ := Option.bind_eq_some_iff.1 count
  have opened : (Token.leftParen :: l').foldlM Token.turn n = some (n + 1) := h.foldlM_turn (n + 1)
  rw [opened] at count
  cases count

end Balanced

/-! ## Open brackets -/

/-- The positions of the brackets that are open after some tokens, the innermost first. -/
inductive Open : List Nat → List Token → Prop
  | none {tokens : List Token} (balanced : Balanced tokens) : Open [] tokens
  | some {places : List Nat} {before inner : List Token} (outside : Open places before)
      (inside : Balanced inner) :
      Open (before.length :: places) (before ++ .leftParen :: inner)

namespace Open

variable {places : List Nat} {tokens more : List Token} {i : Nat}

theorem append (h : Open places tokens) (balanced : Balanced more) :
    Open places (tokens ++ more) := by
  cases h with
  | none h => exact .none (h.append balanced)
  | some outside inside =>
    rw [List.append_assoc]
    exact .some outside (inside.append balanced)

theorem push (h : Open places tokens) :
    Open (tokens.length :: places) (tokens ++ [.leftParen]) := .some h .nil

theorem pop (h : Open (i :: places) tokens) : Open places (tokens ++ [.rightParen]) := by
  cases h with
  | some outside inside =>
    rw [List.append_assoc]
    exact outside.append (.pair inside .nil)

theorem balanced (h : Open [] tokens) : Balanced tokens := by
  cases h with
  | none balanced => exact balanced

theorem opening (h : Open (i :: places) tokens) : tokens[i]? = Option.some .leftParen := by
  cases h with
  | some outside inside => simp

/-- The innermost open bracket has no partner. -/
theorem unmatched (h : Open (i :: places) tokens) : Unmatched tokens i := by
  have here := h.opening
  refine ⟨.inl here, fun q => ⟨?_, ?_⟩⟩
  · rintro ⟨before', inner', rest, split, inside', hlength, -⟩
    cases h with
    | some outside inside =>
      obtain ⟨-, same⟩ := List.append_inj split hlength.symm
      cases same
      exact inside'.not_closed inside
  · intro partners
    cases here.symm.trans partners.closing

end Open

/-- A closing bracket behind brackets that match has no partner. -/
theorem unmatched_behind {before rest : List Token} (h : Balanced before) :
    Unmatched (before ++ .rightParen :: rest) before.length := by
  have here : (before ++ .rightParen :: rest)[before.length]? = some Token.rightParen := by simp
  refine ⟨.inr here, fun q => ⟨?_, ?_⟩⟩
  · intro partners
    cases here.symm.trans partners.opening
  · rintro ⟨before', inner', rest', split, inside', hlength, hq⟩
    have same : before ++ .rightParen :: rest =
        (before' ++ .leftParen :: inner') ++ .rightParen :: rest' := by
      rw [split]
      simp
    obtain ⟨rfl, -⟩ := List.append_inj same (by simp; omega)
    exact inside'.not_opened h

/-! ## Runs and open brackets -/

/-- The tokens stand one after the other, from position `n` on. -/
def Placed : Nat → List (Token × Nat) → Prop
  | _, [] => True
  | n, (_, i) :: rest => i = n ∧ Placed (n + 1) rest

theorem placed_zipIdx (n : Nat) (tokens : List Token) : Placed n (tokens.zipIdx n) := by
  induction tokens generalizing n with
  | nil => trivial
  | cons t rest ih => exact ⟨rfl, ih (n + 1)⟩

theorem Placed.split {n : Nat} {taken more : List (Token × Nat)} (h : Placed n (taken ++ more)) :
    Placed n taken ∧ Placed (n + taken.length) more := by
  induction taken generalizing n with
  | nil => exact ⟨trivial, h⟩
  | cons a taken ih =>
    obtain ⟨here, behind⟩ := ih h.2
    refine ⟨⟨h.1, here⟩, ?_⟩
    rwa [List.length_cons, Nat.add_comm taken.length, ← Nat.add_assoc]

theorem balanced_singleton {t : Token} (opening : t ≠ .leftParen) (closing : t ≠ .rightParen) :
    Balanced [t] := .other opening closing .nil

/-- What a step does to the open brackets. -/
theorem Step.opens {r r' : Reader} {taken : List (Token × Nat)} {next? : Option Token}
    {before : List Token} (h : Step r taken next? r') (placed : Placed before.length taken)
    (opened : Open r.places before) : Open r'.places (before ++ taken.map (·.1)) := by
  cases h with
  | word _ => exact opened.append (balanced_singleton nofun nofun)
  | opening =>
    obtain rfl := placed.1
    exact opened.push
  | emptyCall _ => exact opened.append (.other nofun nofun (.pair .nil .nil))
  | @call level outer f i j _ _ =>
    have name : Open _ (before ++ [.function f]) :=
      opened.append (balanced_singleton nofun nofun)
    obtain rfl : j = (before ++ [Token.function f]).length := by
      rw [List.length_append]
      exact placed.2.1
    have opening := name.push
    rwa [List.append_assoc] at opening
  | unary _ => exact opened.append (balanced_singleton nofun nofun)
  | binary _ => exact opened.append (balanced_singleton nofun nofun)
  | closing => exact opened.pop
  | closingCall _ => exact opened.pop
  | next => exact opened.append (balanced_singleton nofun nofun)

/-- **Open brackets.** What a run keeps as the open brackets are those that no token behind it
closed. -/
theorem Run.opens {r r' : Reader} {taken : List (Token × Nat)} {next? : Option Token}
    (h : Run r taken next? r') {before : List Token} (placed : Placed before.length taken)
    (opened : Open r.places before) : Open r'.places (before ++ taken.map (·.1)) := by
  induction h generalizing before with
  | stay r =>
    rw [List.map_nil, List.append_nil]
    exact opened
  | @step r r' r'' taken more next? first _ ih =>
    obtain ⟨here, behind⟩ := placed.split
    have hlength : (before ++ taken.map (·.1)).length = before.length + taken.length := by
      rw [List.length_append, List.length_map]
    have whole := ih (hlength ▸ behind) (first.opens here opened)
    rwa [List.append_assoc, ← List.map_append] at whole

/-! ## The end of an expression -/

/-- The tokens before `p` build, and no more of the tokens from the first one on do. -/
def EndsAt (tokens : List Token) (p : Nat) : Prop :=
  (∃ e, Expr.ofTokens (tokens.take p) = .ok e) ∧
    ∀ q, p < q → q ≤ tokens.length → ∀ e, Expr.ofTokens (tokens.take q) ≠ .ok e

theorem ofTokens_eq_ok_iff_read {tokens : List Token} {e : Expr} :
    Expr.ofTokens tokens = .ok e ↔ Reader.start.read tokens.zipIdx = .ok e := by
  cases tokens with
  | nil => exact ⟨nofun, nofun⟩
  | cons t rest => exact Iff.rfl

/-- Nothing is read from a token on that does not continue a complete expression. -/
theorem read_ended {x : Expr} {level : Level} {t : Token} {i : Nat} {tokens : List (Token × Nat)}
    (ends : ∀ op, t = .operator op → op.isUnary = true) (e : Expr) :
    Reader.read ⟨some x, level, []⟩ ((t, i) :: tokens) ≠ .ok e := by
  intro h
  have hrest : Expr.readRest x level [] ((t, i) :: tokens) = .ok e := h
  cases t with
  | operator op =>
    rw [Expr.readRest, if_pos (ends op rfl)] at hrest
    cases hrest
  | rightParen | separator | word | function | leftParen => simp [Expr.readRest] at hrest

/-- Tokens behind which a reader can only stop are no part of an expression that begins before
them. -/
theorem Run.endsAt {before rest : List Token} {x : Expr} {level : Level} {t : Token}
    (h : Run .start before.zipIdx (some t) ⟨some x, level, []⟩)
    (ends : ∀ op, t = .operator op → op.isUnary = true) :
    EndsAt (before ++ t :: rest) before.length := by
  constructor
  · refine ⟨level.finish x, ofTokens_eq_ok_iff_read.2 ?_⟩
    have whole : Run .start before.zipIdx (front []) ⟨some x, level, []⟩ := h.of_end
    rw [List.take_left, ← List.append_nil before.zipIdx]
    exact whole.read_eq
  · intro q later _ e builds
    obtain ⟨k, rfl⟩ := Nat.exists_eq_add_of_lt later
    have split : (before ++ t :: rest).take (before.length + k + 1) =
        before ++ t :: rest.take k := by
      rw [Nat.add_assoc, List.take_length_add_append]
      rfl
    rw [ofTokens_eq_ok_iff_read, split, List.zipIdx_append, List.zipIdx_cons] at builds
    rw [Run.read_eq h] at builds
    exact read_ended ends e builds

/-! ## Faults -/

/-- Reading that fails with a position runs over the tokens in front of some place and stops
there. -/
theorem exists_run {tokens : List Token} {fault : ParseError} {p : Nat}
    (h : Expr.ofTokens tokens = .error fault) (located : fault.position? = some p) :
    ∃ before rest r, tokens = before ++ rest ∧
      Run .start before.zipIdx (front (rest.zipIdx before.length)) r ∧
      Stop r (rest.zipIdx before.length) fault ∧ Open r.places before := by
  have hread : Reader.start.read tokens.zipIdx = .error fault := by
    cases tokens with
    | nil =>
      cases h
      cases located
    | cons t rest => exact h
  obtain ⟨taken, left, r, split, run, stop⟩ := exists_stop hread
  obtain ⟨before, rest, rfl, rfl, rfl⟩ := List.zipIdx_eq_append_iff.1 split
  rw [Nat.zero_add] at run stop
  have opened : Open r.places ([] ++ before.zipIdx.map (·.1)) :=
    run.opens (placed_zipIdx 0 before) (.none .nil)
  rw [List.nil_append, List.zipIdx_map_fst] at opened
  exact ⟨before, rest, r, rfl, run, stop, opened⟩

theorem token_of_mem {before rest : List Token} {t : Token} {i : Nat}
    (h : (t, i) ∈ rest.zipIdx before.length) : (before ++ rest)[i]? = some t := by
  refine List.mk_mem_zipIdx_iff_getElem?.1 ?_
  rw [List.zipIdx_append, Nat.zero_add]
  exact List.mem_append_right _ h

/-- What the fault says of the token at `p` is true. -/
structure Truthful (tokens : List Token) (fault : ParseError) (p : Nat) : Prop where
  token : ∃ t, tokens[p]? = some t ∧ ∀ text, fault = .unexpectedToken text p → text = t.text
  bracket : fault = .unmatchedParen p → Unmatched tokens p
  ended : fault = .trailingInput p ∨ fault = .unmatchedParen p ∧ tokens[p]? = some .rightParen →
    EndsAt tokens p

theorem truthful_token {tokens : List Token} {t : Token} {i : Nat} (there : tokens[i]? = some t) :
    Truthful tokens (.unexpectedToken t.text i) i where
  token := ⟨t, there, fun _ same => (ParseError.unexpectedToken.inj same).1.symm⟩
  bracket := nofun
  ended := nofun

theorem truthful_unclosed {tokens : List Token} {i : Nat} {outer : List Nat}
    (opened : Open (i :: outer) tokens) : Truthful tokens (.unmatchedParen i) i where
  token := ⟨.leftParen, opened.opening, nofun⟩
  bracket _ := opened.unmatched
  ended := by
    rintro (same | ⟨-, closing⟩)
    · cases same
    · cases opened.opening.symm.trans closing

theorem truthful_ended {before rest : List Token} {x : Expr} {level : Level} {t : Token}
    (run : Run .start before.zipIdx (some t) ⟨some x, level, []⟩)
    (ends : ∀ op, t = .operator op → op.isUnary = true) (balanced : Balanced before) :
    Truthful (before ++ t :: rest)
      (if t = .rightParen then .unmatchedParen before.length else .trailingInput before.length)
      before.length := by
  have there : (before ++ t :: rest)[before.length]? = some t := by simp
  have atEnd : EndsAt (before ++ t :: rest) before.length := run.endsAt ends
  by_cases closes : t = .rightParen
  · subst closes
    rw [if_pos rfl]
    exact ⟨⟨_, there, nofun⟩, fun _ => unmatched_behind balanced, fun _ => atEnd⟩
  · rw [if_neg closes]
    exact ⟨⟨_, there, nofun⟩, nofun, fun _ => atEnd⟩

/-- A fault with a position comes from one of three places where the reader stops. -/
theorem truthful_of_refused {tokens : List Token} {fault : ParseError} {p : Nat}
    (h : Expr.ofTokens tokens = .error fault) (located : fault.position? = some p) :
    Truthful tokens fault p := by
  obtain ⟨before, rest, r, rfl, run, stop, opened⟩ := exists_run h located
  generalize hleft : rest.zipIdx before.length = left at run stop
  cases stop with
  | token there =>
    obtain rfl := Option.some.inj located
    exact truthful_token (token_of_mem (hleft ▸ there))
  | unclosed innermost =>
    obtain rfl := Option.some.inj located
    obtain rfl := List.zipIdx_eq_nil_iff.1 hleft
    rw [List.append_nil]
    exact truthful_unclosed (innermost ▸ opened)
  | ended ends =>
    obtain ⟨_, rest, rfl, hhead, -⟩ := List.zipIdx_eq_cons_iff.1 hleft
    cases hhead
    obtain rfl : before.length = p := by
      split at located <;> exact Option.some.inj located
    exact truthful_ended run ends opened.balanced
  | elsewhere unlocated =>
    rw [unlocated] at located
    cases located

/-- **Diagnostics.** Where tokens are refused at a position, there is a token. It has the text that
an unexpected token is reported with; an unmatched bracket is one, and has no partner; and where
the tokens go on behind a complete expression, they cannot. -/
theorem faults_located {v : Vocabulary} {texts : List String} {fault : ParseError} {p : Nat}
    (refused : Expr.ofTokens (texts.map (Token.classify v)) = .error fault)
    (located : fault.position? = some p) :
    let tokens := texts.map (Token.classify v)
    p < texts.length ∧
      (∀ text, fault = .unexpectedToken text p → texts[p]? = some text) ∧
      (fault = .unmatchedParen p → Unmatched tokens p) ∧
      (fault = .trailingInput p ∨ fault = .unmatchedParen p ∧ tokens[p]? = some .rightParen →
        EndsAt tokens p) := by
  intro tokens
  obtain ⟨⟨t, there, same⟩, bracket, ended⟩ := truthful_of_refused refused located
  obtain ⟨reported, here, rfl⟩ := Option.map_eq_some_iff.1 (List.getElem?_map ▸ there)
  refine ⟨(List.getElem?_eq_some_iff.1 here).1, fun text unexpected => ?_, bracket, ended⟩
  rw [same text unexpected, Token.text_classify]
  exact here

/-- In `MAX(1))(2)` the second closing bracket is one too many, and the tokens before it build. In
`MAX((1` the second bracket is reported, and it has no partner. -/
theorem faults_located_maximum :
    let closed := ["MAX", "(", "1", ")", ")", "(", "2", ")"]
    let opened := ["MAX", "(", "(", "1"]
    (Expr.ofTokens (closed.map (Token.classify .standard)) = .error (.unmatchedParen 4) ∧
        Unmatched (closed.map (Token.classify .standard)) 4 ∧
        EndsAt (closed.map (Token.classify .standard)) 4) ∧
      Expr.ofTokens (opened.map (Token.classify .standard)) = .error (.unmatchedParen 2) ∧
        Unmatched (opened.map (Token.classify .standard)) 2 := by
  intro closed opened
  have hclosed : Expr.ofTokens (closed.map (Token.classify .standard)) =
      .error (.unmatchedParen 4) := rfl
  have hopened : Expr.ofTokens (opened.map (Token.classify .standard)) =
      .error (.unmatchedParen 2) := rfl
  obtain ⟨-, -, unmatched, ends⟩ := faults_located hclosed rfl
  exact ⟨⟨hclosed, unmatched rfl, ends (.inr ⟨rfl, rfl⟩)⟩, hopened,
    (faults_located hopened rfl).2.2.1 rfl⟩

end Skirmish.Formula
