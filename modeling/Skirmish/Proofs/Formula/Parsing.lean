import Skirmish.Formula.Reading

/-!
# Runs of the reader

`Reads operand? level opened tokens e`: from a level and some open brackets, with an operand just
read or one still wanted, the tokens complete the expression `e`. Positions play no part in it.

1. `ofTokens_eq_ok_iff`: tokens are read as an expression exactly when there is such a run.
2. `Reads.inside`: a run up to the bracket that closes an open one does not depend on what is
   pending around that bracket, nor on what follows it.
3. `Reads.beneath`: nor does a run to the end depend on the operators that wait for all of it.
-/

namespace Skirmish.Formula

/-! ## Runs -/

/-- What an open bracket is for: a group, or the arguments of a call, some of them read. -/
inductive Purpose
  | group
  | arguments (f : Function) (read : List Expr)

/-- What a bracket is for, apart from where it stands. -/
def Bracket.purpose : Bracket → Purpose
  | group _ => .group
  | arguments f _ read => .arguments f read

/-- The open brackets around a token, the innermost first, each with what is pending outside it. -/
abbrev Enclosing := List (Purpose × Level)

/-- Open brackets apart from their positions. -/
def unplaced (opened : List (Bracket × Level)) : Enclosing := opened.map fun o => (o.1.purpose, o.2)

/-- A run of the reader to the end of the tokens. -/
inductive Reads : Option Expr → Level → Enclosing → List Token → Expr → Prop
  | word {level : Level} {opened : Enclosing} {name : String} {rest : List Token} {e : Expr}
      (apart : rest.head? ≠ some .leftParen)
      (more : Reads (some (.leaf (Expr.literal name))) level opened rest e) :
      Reads none level opened (.word name :: rest) e
  | opening {level : Level} {opened : Enclosing} {rest : List Token} {e : Expr}
      (more : Reads none .start ((.group, level) :: opened) rest e) :
      Reads none level opened (.leftParen :: rest) e
  | emptyCall {level : Level} {opened : Enclosing} {f : Function} {rest : List Token}
      {c e : Expr} (accepted : Expr.ofCall f [] = .ok c)
      (more : Reads (some c) level opened rest e) :
      Reads none level opened (.function f :: .leftParen :: .rightParen :: rest) e
  | call {level : Level} {opened : Enclosing} {f : Function} {rest : List Token} {e : Expr}
      (nonempty : rest.head? ≠ some .rightParen)
      (more : Reads none .start ((.arguments f [], level) :: opened) rest e) :
      Reads none level opened (.function f :: .leftParen :: rest) e
  | unary {level : Level} {opened : Enclosing} {op : Operator} {rest : List Token} {e : Expr}
      (kind : op.isUnary = true) (more : Reads none (level.pushUnary op) opened rest e) :
      Reads none level opened (.operator op :: rest) e
  | binary {x : Expr} {level : Level} {opened : Enclosing} {op : Operator} {rest : List Token}
      {e : Expr} (kind : op.isUnary = false)
      (more : Reads none (level.pushBinary x op) opened rest e) :
      Reads (some x) level opened (.operator op :: rest) e
  | closing {x : Expr} {level outer : Level} {opened : Enclosing} {rest : List Token} {e : Expr}
      (more : Reads (some (level.finish x)) outer opened rest e) :
      Reads (some x) level ((.group, outer) :: opened) (.rightParen :: rest) e
  | closingCall {x : Expr} {level outer : Level} {opened : Enclosing} {f : Function}
      {read : List Expr} {rest : List Token} {c e : Expr}
      (accepted : Expr.ofCall f (read ++ [level.finish x]) = .ok c)
      (more : Reads (some c) outer opened rest e) :
      Reads (some x) level ((.arguments f read, outer) :: opened) (.rightParen :: rest) e
  | next {x : Expr} {level outer : Level} {opened : Enclosing} {f : Function}
      {read : List Expr} {rest : List Token} {e : Expr}
      (more : Reads none .start ((.arguments f (read ++ [level.finish x]), outer) :: opened)
        rest e) :
      Reads (some x) level ((.arguments f read, outer) :: opened) (.separator :: rest) e
  | done (x : Expr) (level : Level) : Reads (some x) level [] [] (level.finish x)

/-! ## Reading and runs -/

section Placed

theorem head?_ne_of_map {tokens : List (Token × Nat)} {t : Token}
    (h : ∀ i rest, tokens = (t, i) :: rest → False) : (tokens.map (·.1)).head? ≠ some t := by
  cases tokens with
  | nil => exact nofun
  | cons a rest =>
    obtain ⟨u, i⟩ := a
    intro hu
    obtain rfl : u = t := by simpa using hu
    exact h i rest rfl

mutual

/-- What is read successfully is read in a run. -/
theorem reads_of_readOperand (level : Level) (opened : List (Bracket × Level)) :
    ∀ (tokens : List (Token × Nat)) {e : Expr}, Expr.readOperand level opened tokens = .ok e →
      Reads none level (unplaced opened) (tokens.map (·.1)) e
  | [], e, h => by rw [Expr.readOperand] at h; cases h
  | (.word name, i) :: rest, e, h => by
    by_cases bracket : ∃ j tail, rest = (.leftParen, j) :: tail
    · obtain ⟨j, tail, rfl⟩ := bracket
      rw [Expr.readOperand] at h
      cases h
    · have apart j tail (hr : rest = (.leftParen, j) :: tail) := bracket ⟨j, tail, hr⟩
      rw [Expr.readOperand.eq_3 _ _ _ _ _ apart] at h
      exact .word (head?_ne_of_map apart) (reads_of_readRest _ level opened rest h)
  | (.leftParen, i) :: rest, e, h => by
    rw [Expr.readOperand] at h
    exact .opening (reads_of_readOperand .start ((.group i, level) :: opened) rest h)
  | (.function f, i) :: (.leftParen, j) :: rest, e, h => by
    by_cases bracket : ∃ k tail, rest = (.rightParen, k) :: tail
    · obtain ⟨k, tail, rfl⟩ := bracket
      rw [Expr.readOperand] at h
      cases hc : Expr.ofCall f [] with
      | error err => rw [hc] at h; cases h
      | ok c =>
        rw [hc] at h
        exact .emptyCall hc (reads_of_readRest c level opened tail h)
    · have apart k tail (hr : rest = (.rightParen, k) :: tail) := bracket ⟨k, tail, hr⟩
      rw [Expr.readOperand.eq_6 _ _ _ _ _ _ apart] at h
      exact .call (head?_ne_of_map apart)
        (reads_of_readOperand .start ((.arguments f j [], level) :: opened) rest h)
  | (.operator op, i) :: rest, e, h => by
    rw [Expr.readOperand] at h
    by_cases kind : op.isUnary = true
    · rw [if_pos kind] at h
      exact .unary kind (reads_of_readOperand _ opened rest h)
    · rw [if_neg kind] at h
      cases h
  | [(.function f, i)], e, h => by rw [Expr.readOperand] at h; cases h
  | (.function f, i) :: (.word _, _) :: _, e, h => by simp [Expr.readOperand] at h
  | (.function f, i) :: (.operator _, _) :: _, e, h => by simp [Expr.readOperand] at h
  | (.function f, i) :: (.function _, _) :: _, e, h => by simp [Expr.readOperand] at h
  | (.function f, i) :: (.rightParen, _) :: _, e, h => by simp [Expr.readOperand] at h
  | (.function f, i) :: (.separator, _) :: _, e, h => by simp [Expr.readOperand] at h
  | (.rightParen, i) :: rest, e, h => by simp [Expr.readOperand] at h
  | (.separator, i) :: rest, e, h => by simp [Expr.readOperand] at h

theorem reads_of_readRest (x : Expr) (level : Level) (opened : List (Bracket × Level)) :
    ∀ (tokens : List (Token × Nat)) {e : Expr}, Expr.readRest x level opened tokens = .ok e →
      Reads (some x) level (unplaced opened) (tokens.map (·.1)) e
  | [], e, h => by
    cases opened with
    | nil => rw [Expr.readRest] at h; cases h; exact .done x level
    | cons o opened => rw [Expr.readRest] at h; cases h
  | (.operator op, i) :: rest, e, h => by
    rw [Expr.readRest] at h
    by_cases kind : op.isUnary = true
    · rw [if_pos kind] at h
      cases h
    · rw [if_neg kind] at h
      exact .binary (eq_false_of_ne_true kind) (reads_of_readOperand _ opened rest h)
  | (.rightParen, i) :: rest, e, h => by
    match opened with
    | [] => rw [Expr.readRest] at h; cases h
    | (.group j, outer) :: opened =>
      rw [Expr.readRest] at h
      exact .closing (reads_of_readRest _ outer opened rest h)
    | (.arguments f j read, outer) :: opened =>
      rw [Expr.readRest] at h
      cases hc : Expr.ofCall f (read ++ [level.finish x]) with
      | error err => rw [hc] at h; cases h
      | ok c =>
        rw [hc] at h
        exact .closingCall hc (reads_of_readRest c outer opened rest h)
  | (.separator, i) :: rest, e, h => by
    match opened with
    | [] => simp [Expr.readRest] at h
    | (.group j, outer) :: opened => simp [Expr.readRest] at h
    | (.arguments f j read, outer) :: opened =>
      rw [Expr.readRest] at h
      exact .next (reads_of_readOperand .start _ rest h)
  | (.word name, i) :: rest, e, h => by cases opened <;> simp [Expr.readRest] at h
  | (.leftParen, i) :: rest, e, h => by cases opened <;> simp [Expr.readRest] at h
  | (.function f, i) :: rest, e, h => by cases opened <;> simp [Expr.readRest] at h

end

/-- Reads the tokens, with an operand just read or one still wanted. -/
def Expr.readFrom : Option Expr → Level → List (Bracket × Level) → List (Token × Nat) →
    Except ParseError Expr
  | none => Expr.readOperand
  | some x => Expr.readRest x

/-- A run is what reading does, wherever the tokens stand. -/
theorem Reads.read {operand? : Option Expr} {level : Level} {enclosing : Enclosing}
    {ts : List Token} {e : Expr} (h : Reads operand? level enclosing ts e) :
    ∀ (opened : List (Bracket × Level)) (tokens : List (Token × Nat)),
      unplaced opened = enclosing → tokens.map (·.1) = ts →
        Expr.readFrom operand? level opened tokens = .ok e := by
  induction h with
  | @word level enclosing name rest e apart _ ih =>
    intro opened tokens ho ht
    obtain ⟨⟨t, i⟩, tokens, rfl, rfl, rfl⟩ := List.map_eq_cons_iff.1 ht
    have hnext j tail (hr : tokens = (.leftParen, j) :: tail) : False :=
      apart (by rw [hr]; rfl)
    exact (Expr.readOperand.eq_3 level opened name i tokens hnext).trans (ih opened tokens ho rfl)
  | @opening level enclosing rest e _ ih =>
    intro opened tokens ho ht
    obtain ⟨⟨t, i⟩, tokens, rfl, rfl, rfl⟩ := List.map_eq_cons_iff.1 ht
    exact ih ((.group i, level) :: opened) tokens (by rw [← ho]; rfl) rfl
  | @emptyCall level enclosing f rest c e accepted _ ih =>
    intro opened tokens ho ht
    obtain ⟨⟨t, i⟩, tokens', rfl, rfl, hname⟩ := List.map_eq_cons_iff.1 ht
    obtain ⟨⟨t', j⟩, tokens'', rfl, rfl, hopening⟩ := List.map_eq_cons_iff.1 hname
    obtain ⟨⟨t'', k⟩, tokens, rfl, rfl, rfl⟩ := List.map_eq_cons_iff.1 hopening
    show Expr.readOperand level opened _ = _
    rw [Expr.readOperand, accepted]
    exact ih opened tokens ho rfl
  | @call level enclosing f rest e nonempty _ ih =>
    intro opened tokens ho ht
    obtain ⟨⟨t, i⟩, tokens', rfl, rfl, hname⟩ := List.map_eq_cons_iff.1 ht
    obtain ⟨⟨t', j⟩, tokens, rfl, rfl, rfl⟩ := List.map_eq_cons_iff.1 hname
    have hnext k tail (hr : tokens = (.rightParen, k) :: tail) : False :=
      nonempty (by rw [hr]; rfl)
    exact (Expr.readOperand.eq_6 level opened f i j tokens hnext).trans
      (ih ((.arguments f j [], level) :: opened) tokens (by rw [← ho]; rfl) rfl)
  | @unary level enclosing op rest e kind _ ih =>
    intro opened tokens ho ht
    obtain ⟨⟨t, i⟩, tokens, rfl, rfl, rfl⟩ := List.map_eq_cons_iff.1 ht
    show Expr.readOperand level opened _ = _
    rw [Expr.readOperand, if_pos kind]
    exact ih opened tokens ho rfl
  | @binary x level enclosing op rest e kind _ ih =>
    intro opened tokens ho ht
    obtain ⟨⟨t, i⟩, tokens, rfl, rfl, rfl⟩ := List.map_eq_cons_iff.1 ht
    show Expr.readRest x level opened _ = _
    rw [Expr.readRest, if_neg (ne_true_of_eq_false kind)]
    exact ih opened tokens ho rfl
  | @closing x level outer enclosing rest e _ ih =>
    intro opened tokens ho ht
    obtain ⟨⟨t, i⟩, tokens, rfl, rfl, rfl⟩ := List.map_eq_cons_iff.1 ht
    obtain ⟨⟨bracket, outer⟩, opened, rfl, ho, rfl⟩ := List.map_eq_cons_iff.1 ho
    cases bracket <;> cases ho
    exact ih opened tokens rfl rfl
  | @closingCall x level outer enclosing f read rest c e accepted _ ih =>
    intro opened tokens ho ht
    obtain ⟨⟨t, i⟩, tokens, rfl, rfl, rfl⟩ := List.map_eq_cons_iff.1 ht
    obtain ⟨⟨bracket, outer⟩, opened, rfl, ho, rfl⟩ := List.map_eq_cons_iff.1 ho
    cases bracket <;> cases ho
    show Expr.readRest x level _ _ = _
    rw [Expr.readRest, accepted]
    exact ih opened tokens rfl rfl
  | @next x level outer enclosing f read rest e _ ih =>
    intro opened tokens ho ht
    obtain ⟨⟨t, i⟩, tokens, rfl, rfl, rfl⟩ := List.map_eq_cons_iff.1 ht
    obtain ⟨⟨bracket, outer⟩, opened, rfl, ho, rfl⟩ := List.map_eq_cons_iff.1 ho
    cases bracket <;> cases ho
    exact ih _ tokens rfl rfl
  | done x level =>
    intro opened tokens ho ht
    obtain rfl := List.map_eq_nil_iff.1 ht
    obtain rfl := List.map_eq_nil_iff.1 ho
    rfl

/-- Tokens are read as an expression exactly when a run of the reader says so. -/
theorem ofTokens_eq_ok_iff {tokens : List Token} {e : Expr} :
    Expr.ofTokens tokens = .ok e ↔ Reads none .start [] tokens e := by
  have hplaced : (tokens.zipIdx.map (·.1)) = tokens := List.zipIdx_map_fst 0 tokens
  unfold Expr.ofTokens
  constructor
  · intro h
    split at h
    · cases h
    · have hrun := reads_of_readOperand .start [] tokens.zipIdx h
      rwa [hplaced] at hrun
  · intro h
    have hne : tokens.isEmpty = false := by
      cases h <;> rfl
    rw [if_neg (ne_true_of_eq_false hne)]
    exact h.read [] tokens.zipIdx rfl hplaced

end Placed

/-! ## Inside brackets -/

/-- The tokens close as many brackets as are open, the last token the last of them. -/
def Closes : Nat → List Token → Prop
  | 0, [] => True
  | 0, _ :: _ => False
  | _ + 1, [] => False
  | n + 1, .leftParen :: rest => Closes (n + 2) rest
  | n + 1, .rightParen :: rest => Closes n rest
  | n + 1, .word _ :: rest => Closes (n + 1) rest
  | n + 1, .operator _ :: rest => Closes (n + 1) rest
  | n + 1, .function _ :: rest => Closes (n + 1) rest
  | n + 1, .separator :: rest => Closes (n + 1) rest

theorem Closes.eq_nil {tokens : List Token} (h : Closes 0 tokens) : tokens = [] := by
  cases tokens with
  | nil => rfl
  | cons => cases h

theorem Closes.head?_append_ne {n : Nat} {tokens rest : List Token} {t : Token}
    (h : Closes (n + 1) tokens) (ht : tokens.head? ≠ some t) :
    (tokens ++ rest).head? ≠ some t := by
  cases tokens with
  | nil => cases h
  | cons => exact ht

theorem Reads.eq_finish {x t : Expr} {level : Level} (h : Reads (some x) level [] [] t) :
    t = level.finish x := by
  cases h; rfl

/-- **Inside brackets.** A run that closes the outermost open bracket with its last token goes the
same way whatever is pending around that bracket and whatever follows. -/
theorem Reads.inside {operand? : Option Expr} {level : Level} {enclosing : Enclosing}
    {tokens : List Token} {t : Expr} (h : Reads operand? level enclosing tokens t)
    {outer : Level} {opened : Enclosing} {rest : List Token} {e : Expr}
    (after : Reads (some t) outer opened rest e) :
    ∀ (inner : Enclosing) (purpose : Purpose), enclosing = inner ++ [(purpose, .start)] →
      Closes (inner.length + 1) tokens →
        Reads operand? level (inner ++ (purpose, outer) :: opened) (tokens ++ rest) e := by
  induction h with
  | word apart _ ih =>
    intro inner purpose he hc
    exact .word (Closes.head?_append_ne (n := inner.length) hc apart) (ih after inner purpose he hc)
  | @opening level _ _ _ _ ih =>
    intro inner purpose he hc
    exact .opening (ih after ((.group, level) :: inner) purpose (by rw [he]; rfl) hc)
  | emptyCall accepted _ ih =>
    intro inner purpose he hc
    exact .emptyCall accepted (ih after inner purpose he hc)
  | @call level _ f _ _ nonempty _ ih =>
    intro inner purpose he hc
    exact .call (Closes.head?_append_ne (n := inner.length + 1) hc nonempty)
      (ih after ((.arguments f [], level) :: inner) purpose (by rw [he]; rfl) hc)
  | unary kind _ ih =>
    intro inner purpose he hc
    exact .unary kind (ih after inner purpose he hc)
  | binary kind _ ih =>
    intro inner purpose he hc
    exact .binary kind (ih after inner purpose he hc)
  | closing more ih =>
    intro inner purpose he hc
    cases inner with
    | nil =>
      -- The bracket that closes is the outermost one, so the run ends here.
      cases he
      obtain rfl := Closes.eq_nil hc
      obtain rfl := more.eq_finish
      exact .closing after
    | cons o inner =>
      cases he
      exact .closing (ih after inner purpose rfl hc)
  | closingCall accepted more ih =>
    intro inner purpose he hc
    cases inner with
    | nil =>
      cases he
      obtain rfl := Closes.eq_nil hc
      obtain rfl := more.eq_finish
      exact .closingCall accepted after
    | cons o inner =>
      cases he
      exact .closingCall accepted (ih after inner purpose rfl hc)
  | next _ ih =>
    intro inner purpose he hc
    cases inner with
    | nil =>
      cases he
      exact .next (ih after [] _ rfl hc)
    | cons o inner =>
      cases he
      exact .next (ih after (_ :: inner) purpose rfl hc)
  | done x level =>
    intro inner purpose he hc
    cases inner <;> cases he

/-! ## Beneath everything -/

/-- The least precedence that holds once all the operators are complete is zero. -/
def Grounded (floor : Nat) : List (Waiting × Nat) → Prop
  | [] => floor = 0
  | (_, outer) :: rest => Grounded outer rest

/-- More operators wait for all that is read at this level. -/
def Level.over (l : Level) (waiting : List (Waiting × Nat)) : Level :=
  ⟨l.floor, l.waiting ++ waiting⟩

theorem Level.settle_append (p : Nat) (waiting : List (Waiting × Nat)) (e : Expr) (floor : Nat)
    (w : List (Waiting × Nat)) (h : Grounded floor w) :
    Level.settle p e floor (w ++ waiting) =
        ((Level.settle p e floor w).1, (Level.settle p e floor w).2.over waiting) ∧
      Grounded (Level.settle p e floor w).2.floor (Level.settle p e floor w).2.waiting := by
  induction w generalizing e floor with
  | nil =>
    have hfloor : floor = 0 := h
    subst hfloor
    refine ⟨?_, rfl⟩
    cases waiting with
    | nil => rfl
    | cons a waiting =>
      show (if 0 ≤ p then _ else _) = _
      rw [if_pos (Nat.zero_le p)]
      rfl
  | cons a w ih =>
    obtain ⟨op, outer⟩ := a
    rw [List.cons_append, Level.settle, Level.settle]
    by_cases hp : floor ≤ p
    · rw [if_pos hp, if_pos hp]
      exact ⟨rfl, h⟩
    · rw [if_neg hp, if_neg hp]
      exact ih (op.fill e) outer h

theorem Level.pushBinary_eq (l : Level) (x : Expr) (op : Operator) {left : Expr} {l' : Level}
    (h : Level.settle op.precedence x l.floor l.waiting = (left, l')) :
    l.pushBinary x op = ⟨op.rightFloor, (.binary left op, l'.floor) :: l'.waiting⟩ := by
  unfold Level.pushBinary
  rw [h]

/-- Operators that wait for all that is read do not keep a binary operator from being read. -/
theorem Level.pushBinary_over (l : Level) (x : Expr) (op : Operator)
    (waiting : List (Waiting × Nat)) (h : Grounded l.floor l.waiting) :
    (l.over waiting).pushBinary x op = (l.pushBinary x op).over waiting ∧
      Grounded (l.pushBinary x op).floor (l.pushBinary x op).waiting := by
  obtain ⟨hsettle, hgrounded⟩ := Level.settle_append op.precedence waiting x l.floor l.waiting h
  exact ⟨Level.pushBinary_eq (l.over waiting) x op hsettle, hgrounded⟩

/-- More operators wait for all that is read. -/
def beneath (waiting : List (Waiting × Nat)) (level : Level) : Enclosing → Level × Enclosing
  | [] => (level.over waiting, [])
  | (purpose, outer) :: opened =>
    (level, (purpose, (beneath waiting outer opened).1) :: (beneath waiting outer opened).2)

/-- The outermost level is grounded. -/
def GroundedAt (level : Level) : Enclosing → Prop
  | [] => Grounded level.floor level.waiting
  | (_, outer) :: opened => GroundedAt outer opened

/-- **Beneath everything.** A run goes the same way when more operators wait for the whole of what
it reads, and they take it in the end. -/
theorem Reads.beneath {operand? : Option Expr} {level : Level} {opened : Enclosing}
    {tokens : List Token} {e : Expr} (waiting : List (Waiting × Nat))
    (h : Reads operand? level opened tokens e) (grounded : GroundedAt level opened) :
    Reads operand? (Formula.beneath waiting level opened).1
      (Formula.beneath waiting level opened).2 tokens
      (waiting.foldl (fun e w => w.1.fill e) e) := by
  induction h with
  | word apart _ ih => exact .word apart (ih grounded)
  | opening _ ih => exact .opening (ih grounded)
  | emptyCall accepted _ ih => exact .emptyCall accepted (ih grounded)
  | call nonempty _ ih => exact .call nonempty (ih grounded)
  | @unary level opened op rest e kind _ ih =>
    cases opened with
    | nil => exact .unary kind (ih grounded)
    | cons o opened => exact .unary kind (ih grounded)
  | @binary x level opened op rest e kind _ ih =>
    cases opened with
    | nil =>
      obtain ⟨hpush, hgrounded⟩ := level.pushBinary_over x op waiting grounded
      refine .binary kind ?_
      show Reads none ((level.over waiting).pushBinary x op) [] rest _
      rw [hpush]
      exact ih hgrounded
    | cons o opened => exact .binary kind (ih grounded)
  | closing _ ih => exact .closing (ih grounded)
  | closingCall accepted _ ih => exact .closingCall accepted (ih grounded)
  | next _ ih => exact .next (ih grounded)
  | done x level =>
    have hfold : (level.over waiting).finish x =
        waiting.foldl (fun e w => w.1.fill e) (level.finish x) := List.foldl_append
    rw [← hfold]
    exact .done x (level.over waiting)

end Skirmish.Formula
