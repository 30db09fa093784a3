import Skirmish.Proofs.Formula.Climbing

/-!
# The grammar of formulas

    E ::= O | O binary E
    O ::= variable | ( E ) | unary E | function ( ) | function ( E , … , E )

`Derives` is this grammar, in which a function takes as many arguments as its arity accepts. It
knows nothing of precedence.

1. `Reads.derives`: what the reader has in front of it derives, up to the bracket that closes the
   innermost open one, and the brackets that are open close one after the other.
2. `Derives.readable`: what derives is read, whatever is pending when it begins, as long as what
   follows it can be read.
3. `Reads.inOrder_eq`: the operands, operators and functions that a run reads stand in the
   expression in the order in which they were read.
-/

namespace Skirmish.Formula

/-! ## Derivations -/

/-- What a list of tokens may be: an expression, an operand, or the arguments of a call, so many
of them. -/
inductive Phrase
  | expression
  | operand
  | arguments (count : Nat)

/-- The grammar of formulas. -/
inductive Derives : Phrase → List Token → Prop
  | operand {o : List Token} (head : Derives .operand o) : Derives .expression o
  | binary {o e : List Token} {op : Operator} (head : Derives .operand o) (kind : op.arity = 2)
      (right : Derives .expression e) : Derives .expression (o ++ .operator op :: e)
  | word (name : String) : Derives .operand [.word name]
  | group {e : List Token} (inner : Derives .expression e) :
      Derives .operand (.leftParen :: (e ++ [.rightParen]))
  | unary {e : List Token} {op : Operator} (kind : op.arity = 1) (right : Derives .expression e) :
      Derives .operand (.operator op :: e)
  | emptyCall {f : Function} (accepted : f.arity.accepts 0 = true) :
      Derives .operand [.function f, .leftParen, .rightParen]
  | call {f : Function} {n : Nat} {l : List Token} (accepted : f.arity.accepts n = true)
      (inner : Derives (.arguments n) l) :
      Derives .operand (.function f :: .leftParen :: (l ++ [.rightParen]))
  | last {e : List Token} (head : Derives .expression e) : Derives (.arguments 1) e
  | next {e l : List Token} {n : Nat} (head : Derives .expression e)
      (rest : Derives (.arguments n) l) : Derives (.arguments (n + 1)) (e ++ .separator :: l)

/-- Tokens that turn an operand in front of them into an expression: none, or a binary operator
with an expression after it. -/
inductive Extends : List Token → Prop
  | nothing : Extends []
  | binary {e : List Token} {op : Operator} (kind : op.arity = 2)
      (right : Derives .expression e) : Extends (.operator op :: e)

theorem Derives.extend {o l : List Token} (h : Derives .operand o) (more : Extends l) :
    Derives .expression (o ++ l) := by
  cases more with
  | nothing => rw [List.append_nil]; exact .operand h
  | binary kind right => exact .binary h kind right

/-- No phrase begins with a closing bracket. -/
theorem Derives.exists_cons {p : Phrase} {l : List Token} (h : Derives p l) :
    ∃ t rest, l = t :: rest ∧ t ≠ .rightParen := by
  induction h with
  | operand _ ih => exact ih
  | last _ ih => exact ih
  | binary _ _ _ ih _ | next _ _ ih _ =>
    obtain ⟨t, rest, rfl, ht⟩ := ih
    exact ⟨t, _, rfl, ht⟩
  | word | group | unary | emptyCall | call => exact ⟨_, _, rfl, nofun⟩

/-! ## What is read derives -/

/-- The tokens close the open brackets one after the other, and in between extend what a bracket
made an operand of. -/
inductive Closing : Enclosing → List Token → Prop
  | done : Closing [] []
  | group {outer : Level} {opened : Enclosing} {l rest : List Token} (more : Extends l)
      (after : Closing opened rest) :
      Closing ((.group, outer) :: opened) (.rightParen :: (l ++ rest))
  | arguments {f : Function} {read : List Expr} {outer : Level} {opened : Enclosing}
      {l rest : List Token} (accepted : f.arity.accepts (read.length + 1) = true)
      (more : Extends l) (after : Closing opened rest) :
      Closing ((.arguments f read, outer) :: opened) (.rightParen :: (l ++ rest))
  | next {f : Function} {read : List Expr} {x : Expr} {outer : Level} {opened : Enclosing}
      {e rest : List Token} (argument : Derives .expression e)
      (after : Closing ((.arguments f (read ++ [x]), outer) :: opened) rest) :
      Closing ((.arguments f read, outer) :: opened) (.separator :: (e ++ rest))

/-- An expression inside the bracket of a call begins the arguments that are left. -/
theorem Closing.of_arguments {enclosing : Enclosing} {tokens : List Token}
    (h : Closing enclosing tokens) {f : Function} {read : List Expr} {outer : Level}
    {opened : Enclosing} (he : enclosing = (.arguments f read, outer) :: opened)
    {e : List Token} (argument : Derives .expression e) :
    ∃ n l more rest, e ++ tokens = l ++ .rightParen :: (more ++ rest) ∧
      Derives (.arguments n) l ∧ f.arity.accepts (read.length + n) = true ∧ Extends more ∧
      Closing opened rest := by
  induction h generalizing read e with
  | done => cases he
  | group => cases he
  | @arguments _ _ _ _ l rest accepted more after _ =>
    cases he
    exact ⟨1, e, l, rest, rfl, .last argument, accepted, more, after⟩
  | next argument' _ ih =>
    cases he
    obtain ⟨n, l, more, rest, hl, derives, accepted, extends', after⟩ := ih rfl argument'
    refine ⟨n + 1, e ++ .separator :: l, more, rest, ?_, .next argument derives, ?_, extends',
      after⟩
    · rw [hl, List.append_assoc, List.cons_append]
    · rwa [List.length_append, List.length_singleton, Nat.add_assoc, Nat.add_comm 1] at accepted

/-- What a run begins with: an expression where an operand is wanted, and otherwise what extends
the operand just read. -/
def Begins : Option Expr → List Token → Prop
  | none => Derives .expression
  | some _ => Extends

theorem accepts_of_ofCall {f : Function} {arguments : List Expr} {c : Expr}
    (h : Expr.ofCall f arguments = .ok c) :
    f.arity.accepts arguments.length = true ∧ c = .call f arguments := by
  unfold Expr.ofCall at h
  split at h
  · next accepted => cases h; exact ⟨accepted, rfl⟩
  · cases h

/-- **What is read derives.** A run begins with an expression, or the rest of one, and goes on by
closing the brackets that are open. -/
theorem Reads.derives {operand? : Option Expr} {level : Level} {opened : Enclosing}
    {tokens : List Token} {e : Expr} (h : Reads operand? level opened tokens e)
    (kinds : ∀ op, .operator op ∈ tokens → op.arity = 1 ∨ op.arity = 2) :
    ∃ l rest, tokens = l ++ rest ∧ Begins operand? l ∧ Closing opened rest := by
  induction h with
  | @word _ _ name _ _ _ _ ih =>
    obtain ⟨l, rest, rfl, more, closing⟩ := ih fun op hop => kinds op (.tail _ hop)
    exact ⟨_, rest, rfl, (Derives.word name).extend more, closing⟩
  | opening _ ih =>
    obtain ⟨l, rest, rfl, inner, closing⟩ := ih fun op hop => kinds op (.tail _ hop)
    cases closing with
    | @group _ _ m rest more after =>
      refine ⟨_, rest, ?_, (Derives.group inner).extend more, after⟩
      simp
  | emptyCall accepted _ ih =>
    obtain ⟨l, rest, rfl, more, closing⟩ :=
      ih fun op hop => kinds op (.tail _ (.tail _ (.tail _ hop)))
    exact ⟨_, rest, rfl, (Derives.emptyCall (accepts_of_ofCall accepted).1).extend more, closing⟩
  | call _ _ ih =>
    obtain ⟨l, rest, rfl, argument, closing⟩ :=
      ih fun op hop => kinds op (.tail _ (.tail _ hop))
    obtain ⟨n, m, more, rest, hm, inner, accepted, extends', after⟩ :=
      closing.of_arguments rfl argument
    rw [List.length_nil, Nat.zero_add] at accepted
    refine ⟨_, rest, ?_, (Derives.call accepted inner).extend extends', after⟩
    rw [hm]
    simp
  | @unary _ _ op _ _ kind _ ih =>
    obtain ⟨l, rest, rfl, right, closing⟩ := ih fun op hop => kinds op (.tail _ hop)
    have harity : op.arity = 1 := by simpa [Operator.isUnary] using kind
    exact ⟨_, rest, rfl, .operand (.unary harity right), closing⟩
  | @binary _ _ _ op _ _ kind _ ih =>
    obtain ⟨l, rest, rfl, right, closing⟩ := ih fun op hop => kinds op (.tail _ hop)
    have harity : op.arity ≠ 1 := by simpa [Operator.isUnary] using kind
    have htwo : op.arity = 2 := (kinds op (.head _)).resolve_left harity
    exact ⟨_, rest, rfl, .binary htwo right, closing⟩
  | closing _ ih =>
    obtain ⟨l, rest, rfl, more, closing⟩ := ih fun op hop => kinds op (.tail _ hop)
    exact ⟨[], _, rfl, .nothing, .group more closing⟩
  | closingCall accepted _ ih =>
    obtain ⟨l, rest, rfl, more, closing⟩ := ih fun op hop => kinds op (.tail _ hop)
    have hcount := (accepts_of_ofCall accepted).1
    rw [List.length_append, List.length_singleton] at hcount
    exact ⟨[], _, rfl, .nothing, .arguments hcount more closing⟩
  | next _ ih =>
    obtain ⟨l, rest, rfl, argument, closing⟩ := ih fun op hop => kinds op (.tail _ hop)
    exact ⟨[], _, rfl, .nothing, .next argument closing⟩
  | done => exact ⟨[], [], rfl, .nothing, .done⟩

/-! ## What derives is read -/

/-- The tokens can be read whatever operand is complete in front of them. -/
def Readable (opened : Enclosing) (tokens : List Token) : Prop :=
  ∀ x level, ∃ e, Reads (some x) level opened tokens e

/-- A phrase can be read wherever one is wanted, if what follows it can be read after it. The
arguments of a call are those still missing. -/
def ReadableAs : Phrase → List Token → Prop
  | .arguments n, l => ∀ f read level opened rest, f.arity.accepts (read.length + n) = true →
    rest.head? ≠ some .leftParen → Readable opened rest →
    ∃ e, Reads none .start ((.arguments f read, level) :: opened) (l ++ .rightParen :: rest) e
  | _, l => ∀ level opened rest, rest.head? ≠ some .leftParen → Readable opened rest →
    ∃ e, Reads none level opened (l ++ rest) e

theorem ofCall_of_accepts {f : Function} {arguments : List Expr}
    (h : f.arity.accepts arguments.length = true) :
    Expr.ofCall f arguments = .ok (.call f arguments) := by
  unfold Expr.ofCall
  rw [if_pos h]

/-- **What derives is read.** -/
theorem Derives.readable {p : Phrase} {l : List Token} (h : Derives p l) : ReadableAs p l := by
  induction h with
  | operand _ ih => exact ih
  | @binary o e op _ kind _ ihl ihr =>
    intro level opened rest apart after
    have hbinary : op.isUnary = false := by simp [Operator.isUnary, kind]
    rw [List.append_assoc]
    refine ihl level opened _ nofun fun x level => ?_
    obtain ⟨t, ht⟩ := ihr (level.pushBinary x op) opened rest apart after
    exact ⟨t, .binary hbinary ht⟩
  | word name =>
    intro level opened rest apart after
    obtain ⟨t, ht⟩ := after (.leaf (Expr.literal name)) level
    exact ⟨t, .word apart ht⟩
  | @group e _ ih =>
    intro level opened rest _ after
    have hclosing : Readable ((.group, level) :: opened) (.rightParen :: rest) := fun x inner => by
      obtain ⟨t, ht⟩ := after (inner.finish x) level
      exact ⟨t, .closing ht⟩
    obtain ⟨t, ht⟩ := ih .start _ (.rightParen :: rest) nofun hclosing
    refine ⟨t, ?_⟩
    rw [List.cons_append, List.append_assoc]
    exact .opening ht
  | @unary e op kind _ ih =>
    intro level opened rest apart after
    have hunary : op.isUnary = true := by simp [Operator.isUnary, kind]
    obtain ⟨t, ht⟩ := ih (level.pushUnary op) opened rest apart after
    exact ⟨t, .unary hunary ht⟩
  | @emptyCall f accepted =>
    intro level opened rest _ after
    obtain ⟨t, ht⟩ := after (.call f []) level
    exact ⟨t, .emptyCall (ofCall_of_accepts accepted) ht⟩
  | @call f n l accepted inner ih =>
    intro level opened rest apart after
    rw [← Nat.zero_add n] at accepted
    obtain ⟨t, ht⟩ := ih f [] level opened rest accepted apart after
    obtain ⟨first, l, rfl, hfirst⟩ := inner.exists_cons
    refine ⟨t, ?_⟩
    rw [List.cons_append, List.cons_append, List.append_assoc]
    exact .call (fun h => hfirst (Option.some.inj h)) ht
  | @last e _ ih =>
    intro f read level opened rest accepted _ after
    refine ih .start _ _ nofun fun x inner => ?_
    have hcount : f.arity.accepts (read ++ [inner.finish x]).length = true := by
      rwa [List.length_append]
    obtain ⟨t, ht⟩ := after (.call f (read ++ [inner.finish x])) level
    exact ⟨t, .closingCall (ofCall_of_accepts hcount) ht⟩
  | @next e l n _ _ ihe ihl =>
    intro f read level opened rest accepted apart after
    rw [List.append_assoc]
    refine ihe .start _ _ nofun fun x inner => ?_
    have hcount : f.arity.accepts ((read ++ [inner.finish x]).length + n) = true := by
      rwa [List.length_append, List.length_singleton, Nat.add_assoc, Nat.add_comm 1]
    obtain ⟨t, ht⟩ := ihl f (read ++ [inner.finish x]) level opened rest hcount apart after
    exact ⟨t, .next ht⟩

/-! ## Reading in order -/

/-- What a token puts into an expression. Brackets and commas put nothing there. -/
def Token.value? : Token → Option Value
  | .word name => some (Expr.literal name)
  | .operator op => some (.operator op)
  | .function f => some (.function f)
  | .leftParen | .rightParen | .separator => none

/-- What the operands of an operator hold, with the operator between two of them and in front
of a single one. -/
def around (op : Operator) : List (List Value) → List Value
  | [left, right] => left ++ .operator op :: right
  | parts => .operator op :: parts.flatten

mutual

/-- The values in an expression from left to right: an operator between its two operands or in
front of its only one, a function in front of its arguments. -/
def Expr.inOrder : Expr → List Value
  | .leaf v => [v]
  | .apply op operands => around op (Expr.inOrderEach operands)
  | .call f arguments => .function f :: (Expr.inOrderEach arguments).flatten

/-- The values in each of some expressions. -/
def Expr.inOrderEach : List Expr → List (List Value)
  | [] => []
  | e :: rest => e.inOrder :: Expr.inOrderEach rest

end

theorem Expr.inOrderEach_append (l m : List Expr) :
    Expr.inOrderEach (l ++ m) = Expr.inOrderEach l ++ Expr.inOrderEach m := by
  induction l with
  | nil => rfl
  | cons e l ih => simp [Expr.inOrderEach, ih]

/-- The values in front of what a waiting operator waits for. -/
def Waiting.inOrder : Waiting → List Value
  | .binary left op => left.inOrder ++ [.operator op]
  | .unary op => [.operator op]

/-- The values in front of what the innermost of some waiting operators waits for. -/
def waitingInOrder : List (Waiting × Nat) → List Value
  | [] => []
  | (w, _) :: rest => waitingInOrder rest ++ w.inOrder

/-- The values that were read behind a bracket, up to the expression that is being read. -/
def Purpose.inOrder : Purpose → List Value
  | .group => []
  | .arguments f read => .function f :: (Expr.inOrderEach read).flatten

/-- The values that were read up to the innermost open bracket. -/
def enclosingInOrder : Enclosing → List Value
  | [] => []
  | (purpose, outer) :: opened =>
    enclosingInOrder opened ++ waitingInOrder outer.waiting ++ purpose.inOrder

theorem Waiting.inOrder_fill (w : Waiting) (x : Expr) :
    (w.fill x).inOrder = w.inOrder ++ x.inOrder := by
  cases w with
  | binary left op =>
    simp [Waiting.fill, Waiting.inOrder, Expr.inOrder, Expr.inOrderEach, around]
  | unary op => simp [Waiting.fill, Waiting.inOrder, Expr.inOrder, Expr.inOrderEach, around]

theorem Level.inOrder_finish (level : Level) (x : Expr) :
    (level.finish x).inOrder = waitingInOrder level.waiting ++ x.inOrder := by
  obtain ⟨floor, waiting⟩ := level
  show (waiting.foldl (fun e w => w.1.fill e) x).inOrder = _
  induction waiting generalizing x with
  | nil => rfl
  | cons w rest ih => simp [waitingInOrder, ih, w.1.inOrder_fill]

theorem Level.inOrder_settle (p : Nat) (x : Expr) (floor : Nat) (waiting : List (Waiting × Nat)) :
    waitingInOrder (Level.settle p x floor waiting).2.waiting ++
        (Level.settle p x floor waiting).1.inOrder =
      waitingInOrder waiting ++ x.inOrder := by
  induction waiting generalizing x floor with
  | nil => rfl
  | cons w rest ih =>
    rw [Level.settle]
    split
    · rfl
    · rw [ih, w.1.inOrder_fill, waitingInOrder, List.append_assoc]

theorem Level.inOrder_pushBinary (level : Level) (x : Expr) (op : Operator) :
    waitingInOrder (level.pushBinary x op).waiting =
      waitingInOrder level.waiting ++ x.inOrder ++ [.operator op] := by
  show waitingInOrder _ ++ (_ ++ _) = _
  rw [← List.append_assoc, Level.inOrder_settle]

theorem inOrder_of_ofCall {f : Function} {arguments : List Expr} {c : Expr}
    (h : Expr.ofCall f arguments = .ok c) :
    c.inOrder = .function f :: (Expr.inOrderEach arguments).flatten := by
  obtain ⟨-, rfl⟩ := accepts_of_ofCall h
  rfl

/-- **Reading in order.** What was read before, the operand just read and what the tokens put into
the expression stand in it in this order. -/
theorem Reads.inOrder_eq {operand? : Option Expr} {level : Level} {opened : Enclosing}
    {tokens : List Token} {e : Expr} (h : Reads operand? level opened tokens e) :
    e.inOrder = enclosingInOrder opened ++ waitingInOrder level.waiting ++
      (operand?.elim [] Expr.inOrder ++ tokens.filterMap Token.value?) := by
  induction h with
  | word _ _ ih => simpa [Token.value?, Expr.inOrder] using ih
  | opening _ ih =>
    simpa [Token.value?, List.filterMap_cons, enclosingInOrder, Purpose.inOrder, Level.start,
      waitingInOrder] using ih
  | emptyCall accepted _ ih =>
    simpa [Token.value?, List.filterMap_cons, inOrder_of_ofCall accepted, Expr.inOrderEach] using ih
  | call _ _ ih =>
    simpa [Token.value?, List.filterMap_cons, enclosingInOrder, Purpose.inOrder,
      Expr.inOrderEach, Level.start, waitingInOrder] using ih
  | unary _ _ ih =>
    simpa [Token.value?, Level.pushUnary, waitingInOrder, Waiting.inOrder] using ih
  | binary _ _ ih => simpa [Token.value?, Level.inOrder_pushBinary] using ih
  | closing _ ih =>
    simpa [Token.value?, List.filterMap_cons, enclosingInOrder, Purpose.inOrder,
      Level.inOrder_finish] using ih
  | closingCall accepted _ ih =>
    simpa [Token.value?, List.filterMap_cons, inOrder_of_ofCall accepted, enclosingInOrder,
      Purpose.inOrder, Expr.inOrderEach_append, Expr.inOrderEach, Level.inOrder_finish] using ih
  | next _ ih =>
    simpa [Token.value?, List.filterMap_cons, enclosingInOrder, Purpose.inOrder,
      Expr.inOrderEach_append, Expr.inOrderEach, Level.inOrder_finish, Level.start,
      waitingInOrder] using ih
  | done x level => simp [enclosingInOrder, Level.inOrder_finish]

/-! ## The grammar decides -/

/-- Whatever is classified as an operator is an operator of the vocabulary. -/
theorem mem_operators_of_classify {v : Vocabulary} {text : String} {op : Operator}
    (h : Token.classify v text = .operator op) : op ∈ v.operators := by
  unfold Token.classify at h
  split at h
  · cases h
  · split at h
    · next found =>
      cases h
      exact List.mem_of_find?_eq_some found
    · split at h
      · cases h
      · split at h
        · cases h
        · split at h <;> cases h

/-- **Grammar.** Let operators be unary or binary. Texts, each classified as a token, build an
expression exactly when they derive from the grammar as one. The expression has in it what the
tokens stand for, brackets and commas apart, in the order of the tokens. -/
theorem builds_iff_derives (v : Vocabulary) (regular : v.Regular) (texts : List String) :
    let tokens := texts.map (Token.classify v)
    ((∃ e, Expr.ofTokens tokens = .ok e) ↔ Derives .expression tokens) ∧
      ∀ e, Expr.ofTokens tokens = .ok e → e.inOrder = tokens.filterMap Token.value? := by
  intro tokens
  have kinds (op : Operator) (hop : .operator op ∈ tokens) : op.arity = 1 ∨ op.arity = 2 := by
    obtain ⟨text, -, h⟩ := List.mem_map.1 hop
    exact regular.arity op (mem_operators_of_classify h)
  refine ⟨⟨?_, fun h => ?_⟩, fun e he => (ofTokens_eq_ok_iff.1 he).inOrder_eq⟩
  · rintro ⟨e, he⟩
    obtain ⟨l, rest, hl, derives, closing⟩ := (ofTokens_eq_ok_iff.1 he).derives kinds
    cases closing
    rw [hl, List.append_nil]
    exact derives
  · have hend : Readable [] [] := fun x level => ⟨_, .done x level⟩
    obtain ⟨e, he⟩ := h.readable .start [] [] nofun hend
    rw [List.append_nil] at he
    exact ⟨e, ofTokens_eq_ok_iff.2 he⟩

/-- `MAX(a-1,!b)` derives, and `MAX(a-)` does not. -/
theorem builds_iff_derives_maximum :
    Derives .expression (["MAX", "(", "a", "-", "1", ",", "!", "b", ")"].map
        (Token.classify .standard)) ∧
      ¬Derives .expression (["MAX", "(", "a", "-", ")"].map (Token.classify .standard)) := by
  have refused e : Expr.ofTokens (["MAX", "(", "a", "-", ")"].map (Token.classify .standard)) ≠
      .ok e := nofun
  constructor
  · exact (builds_iff_derives .standard regular_standard _).1.1 ⟨_, rfl⟩
  · intro h
    obtain ⟨e, he⟩ := (builds_iff_derives .standard regular_standard _).1.2 h
    exact refused e he

end Skirmish.Formula
