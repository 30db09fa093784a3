import Skirmish.Proofs.Formula.Parsing

/-!
# Steps of the reader

What the reader keeps between two tokens is a `Reader`: the operand just read, if one was, what
pends, and the open brackets. A step takes up to three tokens, and may depend on the one that
follows them.

1. `Run.read_eq`: a run takes tokens off the front and leaves the result of reading as it is.
2. `exists_stop`: reading that fails is a run up to a place where the reader stops. `Stop` says
   where the position in the fault comes from.
3. `Run.of_end`: a run is the same where the tokens end behind it.
-/

namespace Skirmish.Formula

/-- The position that a fault reports. -/
def ParseError.position? : ParseError → Option Nat
  | unexpectedToken _ p | unmatchedParen p | trailingInput p => some p
  | _ => none

/-- What the reader keeps between two tokens. -/
structure Reader where
  operand? : Option Expr
  level : Level
  opened : List (Bracket × Level)

namespace Reader

/-- The reader before the first token. -/
def start : Reader := ⟨none, .start, []⟩

/-- Reads tokens to their end. -/
def read (r : Reader) : List (Token × Nat) → Except ParseError Expr :=
  Expr.readFrom r.operand? r.level r.opened

/-- The positions of the open brackets, the innermost first. -/
def places (r : Reader) : List Nat := r.opened.map fun o => o.1.opening

end Reader

/-- The first of some tokens. -/
def front (tokens : List (Token × Nat)) : Option Token := tokens.head?.map (·.1)

theorem front_append (tokens rest : List (Token × Nat)) :
    front (tokens ++ rest) = (front tokens).or (front rest) := by
  cases tokens <;> rfl

theorem front_ne_iff {tokens : List (Token × Nat)} {t : Token} :
    front tokens ≠ some t ↔ ∀ i rest, tokens = (t, i) :: rest → False := by
  constructor
  · rintro h i rest rfl
    exact h rfl
  · intro h hfront
    obtain ⟨⟨u, i⟩, hhead, rfl⟩ := Option.map_eq_some_iff.1 hfront
    obtain ⟨rest, rfl⟩ := List.head?_eq_some_iff.1 hhead
    exact h i rest rfl

/-! ## Steps -/

/-- One step of the reader: it takes tokens in front of the token `next?`. -/
inductive Step : Reader → List (Token × Nat) → Option Token → Reader → Prop
  | word {level : Level} {opened : List (Bracket × Level)} {name : String} {i : Nat}
      {next? : Option Token} (apart : next? ≠ some .leftParen) :
      Step ⟨none, level, opened⟩ [(.word name, i)] next?
        ⟨some (.leaf (Expr.literal name)), level, opened⟩
  | opening {level : Level} {opened : List (Bracket × Level)} {i : Nat} {next? : Option Token} :
      Step ⟨none, level, opened⟩ [(.leftParen, i)] next? ⟨none, .start, (.group i, level) :: opened⟩
  | emptyCall {level : Level} {opened : List (Bracket × Level)} {f : Function} {i j k : Nat}
      {next? : Option Token} {c : Expr} (accepted : Expr.ofCall f [] = .ok c) :
      Step ⟨none, level, opened⟩ [(.function f, i), (.leftParen, j), (.rightParen, k)] next?
        ⟨some c, level, opened⟩
  | call {level : Level} {opened : List (Bracket × Level)} {f : Function} {i j : Nat}
      {next? : Option Token} (nonempty : next? ≠ some .rightParen) :
      Step ⟨none, level, opened⟩ [(.function f, i), (.leftParen, j)] next?
        ⟨none, .start, (.arguments f j [], level) :: opened⟩
  | unary {level : Level} {opened : List (Bracket × Level)} {op : Operator} {i : Nat}
      {next? : Option Token} (kind : op.isUnary = true) :
      Step ⟨none, level, opened⟩ [(.operator op, i)] next? ⟨none, level.pushUnary op, opened⟩
  | binary {x : Expr} {level : Level} {opened : List (Bracket × Level)} {op : Operator} {i : Nat}
      {next? : Option Token} (kind : op.isUnary = false) :
      Step ⟨some x, level, opened⟩ [(.operator op, i)] next? ⟨none, level.pushBinary x op, opened⟩
  | closing {x : Expr} {level outer : Level} {opened : List (Bracket × Level)} {i j : Nat}
      {next? : Option Token} :
      Step ⟨some x, level, (.group j, outer) :: opened⟩ [(.rightParen, i)] next?
        ⟨some (level.finish x), outer, opened⟩
  | closingCall {x : Expr} {level outer : Level} {opened : List (Bracket × Level)} {f : Function}
      {i j : Nat} {read : List Expr} {next? : Option Token} {c : Expr}
      (accepted : Expr.ofCall f (read ++ [level.finish x]) = .ok c) :
      Step ⟨some x, level, (.arguments f j read, outer) :: opened⟩ [(.rightParen, i)] next?
        ⟨some c, outer, opened⟩
  | next {x : Expr} {level outer : Level} {opened : List (Bracket × Level)} {f : Function}
      {i j : Nat} {read : List Expr} {next? : Option Token} :
      Step ⟨some x, level, (.arguments f j read, outer) :: opened⟩ [(.separator, i)] next?
        ⟨none, .start, (.arguments f j (read ++ [level.finish x]), outer) :: opened⟩

/-- A step goes the same way where the tokens end behind it. -/
theorem Step.of_end {r r' : Reader} {taken : List (Token × Nat)} {next? : Option Token}
    (h : Step r taken next? r') : Step r taken none r' := by
  cases h with
  | word _ => exact .word nofun
  | opening => exact .opening
  | emptyCall accepted => exact .emptyCall accepted
  | call _ => exact .call nofun
  | unary kind => exact .unary kind
  | binary kind => exact .binary kind
  | closing => exact .closing
  | closingCall accepted => exact .closingCall accepted
  | next => exact .next

/-- A step is what reading does with the tokens that it takes. -/
theorem Step.read_eq {r r' : Reader} {taken tokens : List (Token × Nat)}
    (h : Step r taken (front tokens) r') : r.read (taken ++ tokens) = r'.read tokens := by
  cases h with
  | @word level opened name i _ apart =>
    exact Expr.readOperand.eq_3 level opened name i tokens (front_ne_iff.1 apart)
  | opening => exact Expr.readOperand.eq_4 _ _ _ _
  | @emptyCall level opened f i j k _ c accepted =>
    show Expr.readOperand level opened
      ((.function f, i) :: (.leftParen, j) :: (.rightParen, k) :: tokens) = _
    rw [Expr.readOperand, accepted]
    rfl
  | @call level opened f i j _ nonempty =>
    exact Expr.readOperand.eq_6 level opened f i j tokens (front_ne_iff.1 nonempty)
  | @unary level opened op i _ kind =>
    show Expr.readOperand level opened _ = _
    rw [List.singleton_append, Expr.readOperand, if_pos kind]
    rfl
  | @binary x level opened op i _ kind =>
    show Expr.readRest x level opened _ = _
    rw [List.singleton_append, Expr.readRest, if_neg (ne_true_of_eq_false kind)]
    rfl
  | @closing x level outer opened i j =>
    show Expr.readRest x level _ _ = _
    rw [List.singleton_append, Expr.readRest]
    rfl
  | @closingCall x level outer opened f i j read _ c accepted =>
    show Expr.readRest x level _ _ = _
    rw [List.singleton_append, Expr.readRest, accepted]
    rfl
  | @next x level outer opened f i j read =>
    show Expr.readRest x level _ _ = _
    rw [List.singleton_append, Expr.readRest]
    rfl

/-! ## Runs -/

/-- Steps of the reader one after the other, in front of the token `next?`. -/
inductive Run : Reader → List (Token × Nat) → Option Token → Reader → Prop
  | stay (r : Reader) (next? : Option Token) : Run r [] next? r
  | step {r r' r'' : Reader} {taken more : List (Token × Nat)} {next? : Option Token}
      (first : Step r taken ((front more).or next?) r') (rest : Run r' more next? r'') :
      Run r (taken ++ more) next? r''

/-- A run takes its tokens off what is read. -/
theorem Run.read_eq {r r' : Reader} {taken tokens : List (Token × Nat)}
    (h : Run r taken (front tokens) r') : r.read (taken ++ tokens) = r'.read tokens := by
  generalize hnext : front tokens = next? at h
  induction h with
  | stay r => rfl
  | @step r r' r'' taken more next? first _ ih =>
    rw [← hnext, ← front_append] at first
    rw [List.append_assoc, first.read_eq, ih hnext]

/-- A run goes the same way where the tokens end behind it. -/
theorem Run.of_end {r r' : Reader} {taken : List (Token × Nat)} {next? : Option Token}
    (h : Run r taken next? r') : Run r taken none r' := by
  induction h with
  | stay r => exact .stay r none
  | @step r r' r'' taken more next? first rest ih =>
    refine .step ?_ ih
    -- Whatever the step had behind it is there still, or nothing is.
    cases more with
    | nil => exact first.of_end
    | cons a more => exact first

/-! ## Stops -/

/-- Where the reader stops in front of some tokens, with a fault. -/
inductive Stop : Reader → List (Token × Nat) → ParseError → Prop
  | token {r : Reader} {tokens : List (Token × Nat)} {t : Token} {i : Nat}
      (there : (t, i) ∈ tokens) : Stop r tokens (.unexpectedToken t.text i)
  | unclosed {r : Reader} {i : Nat} {outer : List Nat} (innermost : r.places = i :: outer) :
      Stop r [] (.unmatchedParen i)
  | ended {x : Expr} {level : Level} {t : Token} {i : Nat} {tokens : List (Token × Nat)}
      (ends : ∀ op, t = .operator op → op.isUnary = true) :
      Stop ⟨some x, level, []⟩ ((t, i) :: tokens)
        (if t = .rightParen then .unmatchedParen i else .trailingInput i)
  | elsewhere {r : Reader} {tokens : List (Token × Nat)} {fault : ParseError}
      (unlocated : fault.position? = none) : Stop r tokens fault

/-- Reading runs up to a place where it stops with the fault. -/
def Stops (r : Reader) (tokens : List (Token × Nat)) (fault : ParseError) : Prop :=
  ∃ taken rest r', tokens = taken ++ rest ∧ Run r taken (front rest) r' ∧ Stop r' rest fault

theorem Stop.stops {r : Reader} {tokens : List (Token × Nat)} {fault : ParseError}
    (h : Stop r tokens fault) : Stops r tokens fault :=
  ⟨[], tokens, r, rfl, .stay r _, h⟩

theorem Step.stops {r r' : Reader} {taken tokens : List (Token × Nat)} {fault : ParseError}
    (h : Step r taken (front tokens) r') (stops : Stops r' tokens fault) :
    Stops r (taken ++ tokens) fault := by
  obtain ⟨more, rest, r'', rfl, run, stop⟩ := stops
  rw [front_append] at h
  exact ⟨taken ++ more, rest, r'', (List.append_assoc ..).symm, .step h run, stop⟩

theorem position?_of_ofCall {f : Function} {arguments : List Expr} {fault : ParseError}
    (h : Expr.ofCall f arguments = .error fault) : fault.position? = none := by
  unfold Expr.ofCall at h
  split at h
  · cases h
  · cases h
    rfl

/-- Whether the token can only begin an operand. -/
def Token.begins : Token → Bool
  | word _ | leftParen | function _ => true
  | operator _ | rightParen | separator => false

/-- A token behind a complete operand that neither continues it nor closes or parts anything. -/
theorem Stop.behind {x : Expr} {level : Level} {opened : List (Bracket × Level)} {t : Token}
    {i : Nat} {tokens : List (Token × Nat)} (closes : t ≠ .rightParen)
    (ends : ∀ op, t = .operator op → op.isUnary = true) :
    Stop ⟨some x, level, opened⟩ ((t, i) :: tokens)
      (if opened.isEmpty then .trailingInput i else .unexpectedToken t.text i) := by
  cases opened with
  | nil =>
    have stop : Stop ⟨some x, level, []⟩ ((t, i) :: tokens)
        (if t = .rightParen then .unmatchedParen i else .trailingInput i) := .ended ends
    rwa [if_neg closes] at stop
  | cons o opened => exact .token List.mem_cons_self

theorem readRest_of_begins {x : Expr} {level : Level} {opened : List (Bracket × Level)} {t : Token}
    {i : Nat} {tokens : List (Token × Nat)} (h : t.begins = true) :
    Expr.readRest x level opened ((t, i) :: tokens) =
      .error (if opened.isEmpty then .trailingInput i else .unexpectedToken t.text i) := by
  cases t with
  | operator | rightParen | separator => cases h
  | _ => cases opened <;> simp [Expr.readRest]

theorem Stop.of_begins {x : Expr} {level : Level} {opened : List (Bracket × Level)} {t : Token}
    {i : Nat} {tokens : List (Token × Nat)} {fault : ParseError} (begins : t.begins = true)
    (h : Expr.readRest x level opened ((t, i) :: tokens) = .error fault) :
    Stop ⟨some x, level, opened⟩ ((t, i) :: tokens) fault := by
  rw [readRest_of_begins begins] at h
  cases h
  exact .behind (by rintro rfl; cases begins) (by rintro op rfl; cases begins)

theorem readOperand_function {level : Level} {opened : List (Bracket × Level)} {f : Function}
    {t : Token} {i j : Nat} {tokens : List (Token × Nat)} (h : t ≠ .leftParen) :
    Expr.readOperand level opened ((.function f, i) :: (t, j) :: tokens) =
      .error (.unexpectedToken t.text j) := by
  cases t <;> first | exact absurd rfl h | simp only [Expr.readOperand]

mutual

/-- What cannot be read as an operand and what follows it. -/
theorem stops_readOperand (level : Level) (opened : List (Bracket × Level)) :
    ∀ (tokens : List (Token × Nat)) {fault : ParseError},
      Expr.readOperand level opened tokens = .error fault →
        Stops ⟨none, level, opened⟩ tokens fault
  | [], fault, h => by
    rw [Expr.readOperand] at h
    cases h
    exact (Stop.elsewhere rfl).stops
  | (.word name, i) :: rest, fault, h => by
    by_cases bracket : ∃ j tail, rest = (.leftParen, j) :: tail
    · obtain ⟨j, tail, rfl⟩ := bracket
      rw [Expr.readOperand] at h
      cases h
      exact (Stop.elsewhere rfl).stops
    · have apart j tail (hr : rest = (.leftParen, j) :: tail) := bracket ⟨j, tail, hr⟩
      rw [Expr.readOperand.eq_3 _ _ _ _ _ apart] at h
      exact (Step.word (front_ne_iff.2 apart)).stops (stops_readRest _ level opened rest h)
  | (.leftParen, i) :: rest, fault, h => by
    rw [Expr.readOperand] at h
    exact Step.opening.stops (stops_readOperand .start ((.group i, level) :: opened) rest h)
  | (.function f, i) :: (t, j) :: rest, fault, h => by
    by_cases called : t = .leftParen
    · subst called
      by_cases empty : ∃ k tail, rest = (.rightParen, k) :: tail
      · obtain ⟨k, tail, rfl⟩ := empty
        rw [Expr.readOperand] at h
        cases hc : Expr.ofCall f [] with
        | error err =>
          rw [hc] at h
          cases h
          exact (Stop.elsewhere (position?_of_ofCall hc)).stops
        | ok c =>
          rw [hc] at h
          exact (Step.emptyCall hc).stops (stops_readRest c level opened tail h)
      · have nonempty k tail (hr : rest = (.rightParen, k) :: tail) := empty ⟨k, tail, hr⟩
        rw [Expr.readOperand.eq_6 _ _ _ _ _ _ nonempty] at h
        exact (Step.call (front_ne_iff.2 nonempty)).stops
          (stops_readOperand .start ((.arguments f j [], level) :: opened) rest h)
    · rw [readOperand_function called] at h
      cases h
      exact (Stop.token (.tail _ (.head _))).stops
  | (.operator op, i) :: rest, fault, h => by
    rw [Expr.readOperand] at h
    by_cases kind : op.isUnary = true
    · rw [if_pos kind] at h
      exact (Step.unary kind).stops (stops_readOperand _ opened rest h)
    · rw [if_neg kind] at h
      cases h
      exact (Stop.token (t := .operator op) List.mem_cons_self).stops
  | [(.function f, i)], fault, h => by
    rw [Expr.readOperand] at h
    cases h
    exact (Stop.elsewhere rfl).stops
  | (.rightParen, i) :: rest, fault, h => by
    simp only [Expr.readOperand] at h
    cases h
    exact (Stop.token List.mem_cons_self).stops
  | (.separator, i) :: rest, fault, h => by
    simp only [Expr.readOperand] at h
    cases h
    exact (Stop.token List.mem_cons_self).stops

/-- What cannot be read behind the complete operand `x`. -/
theorem stops_readRest (x : Expr) (level : Level) (opened : List (Bracket × Level)) :
    ∀ (tokens : List (Token × Nat)) {fault : ParseError},
      Expr.readRest x level opened tokens = .error fault →
        Stops ⟨some x, level, opened⟩ tokens fault
  | [], fault, h => by
    cases opened with
    | nil => rw [Expr.readRest] at h; cases h
    | cons o opened =>
      rw [Expr.readRest] at h
      cases h
      exact (Stop.unclosed rfl).stops
  | (.operator op, i) :: rest, fault, h => by
    rw [Expr.readRest] at h
    by_cases kind : op.isUnary = true
    · rw [if_pos kind] at h
      injection h with h
      have stop : Stop ⟨some x, level, opened⟩ ((.operator op, i) :: rest) _ :=
        .behind nofun fun op' he => by
          cases he
          exact kind
      exact (h ▸ stop).stops
    · rw [if_neg kind] at h
      exact (Step.binary (eq_false_of_ne_true kind)).stops (stops_readOperand _ opened rest h)
  | (.rightParen, i) :: rest, fault, h => by
    match opened with
    | [] =>
      rw [Expr.readRest] at h
      cases h
      exact (Stop.ended (t := .rightParen) nofun).stops
    | (.group j, outer) :: opened =>
      rw [Expr.readRest] at h
      exact Step.closing.stops (stops_readRest _ outer opened rest h)
    | (.arguments f j read, outer) :: opened =>
      rw [Expr.readRest] at h
      cases hc : Expr.ofCall f (read ++ [level.finish x]) with
      | error err =>
        rw [hc] at h
        cases h
        exact (Stop.elsewhere (position?_of_ofCall hc)).stops
      | ok c =>
        rw [hc] at h
        exact (Step.closingCall hc).stops (stops_readRest c outer opened rest h)
  | (.separator, i) :: rest, fault, h => by
    match opened with
    | [] =>
      simp only [Expr.readRest] at h
      cases h
      have stop : Stop ⟨some x, level, []⟩ ((.separator, i) :: rest) (.trailingInput i) :=
        .behind nofun nofun
      exact stop.stops
    | (.group j, outer) :: opened =>
      simp only [Expr.readRest] at h
      cases h
      exact (Stop.token List.mem_cons_self).stops
    | (.arguments f j read, outer) :: opened =>
      rw [Expr.readRest] at h
      exact Step.next.stops (stops_readOperand .start _ rest h)
  | (.word name, i) :: rest, fault, h => (Stop.of_begins rfl h).stops
  | (.leftParen, i) :: rest, fault, h => (Stop.of_begins rfl h).stops
  | (.function f, i) :: rest, fault, h => (Stop.of_begins rfl h).stops

end

/-- **Stops.** Reading that fails runs up to a place where it stops with its fault. -/
theorem exists_stop {r : Reader} {tokens : List (Token × Nat)} {fault : ParseError}
    (h : r.read tokens = .error fault) : Stops r tokens fault := by
  obtain ⟨operand?, level, opened⟩ := r
  cases operand? with
  | none => exact stops_readOperand level opened tokens h
  | some x => exact stops_readRest x level opened tokens h

end Skirmish.Formula
