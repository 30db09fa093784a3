import Skirmish.Proofs.Formula.Grammar
import Skirmish.Proofs.Formula.Spacing

/-!
# Printing

`Written.text` writes an expression down: a leaf as its own text, an operator between or in front
of its operands, a call with its arguments in brackets and commas between them. Operands that are
operators on operands themselves, and no others, are put in brackets.

1. `Written.stands`: the texts of what is written do not run into each other, so they are split
   into the tokens that were written.
2. `Written.reads`: what is written in brackets or needs none is read as one operand, and the whole
   of it is read between any two brackets.
3. `parse_text`: so what is written down is read back.
-/

namespace Skirmish.Formula

open Vocabulary

/-! ## Writing -/

/-- An expression with the texts of its leaves. -/
inductive Written
  | word (text : String)
  | binary (op : Operator) (left right : Written)
  | unary (op : Operator) (operand : Written)
  | call (f : Function) (arguments : List Written)

namespace Written

/-- Whether an operator is at the root. -/
def isOperation : Written → Bool
  | binary .. | unary .. => true
  | word _ | call .. => false

mutual

/-- The expression that is written. -/
def expr : Written → Expr
  | word text => .leaf (Expr.literal text)
  | binary op left right => .apply op [left.expr, right.expr]
  | unary op operand => .apply op [operand.expr]
  | call f arguments => .call f (exprs arguments)

/-- The expressions that are written. -/
def exprs : List Written → List Expr
  | [] => []
  | w :: rest => w.expr :: exprs rest

end

/-- Puts the text of an operand in brackets, if it is an operation. -/
def bracketed (w : Written) (text : String) : String :=
  if w.isOperation then "(" ++ text ++ ")" else text

mutual

/-- What is written. -/
def text : Written → String
  | word text => text
  | binary op left right => left.bracketed left.text ++ op.symbol ++ right.bracketed right.text
  | unary op operand => op.symbol ++ operand.bracketed operand.text
  | call f arguments => f.name ++ "(" ++ ",".intercalate (texts arguments) ++ ")"

/-- What is written for each of some expressions. -/
def texts : List Written → List String
  | [] => []
  | w :: rest => w.text :: texts rest

end

mutual

/-- Every symbol is a standard one with as many operands or arguments as it takes, and leaves have
texts that may stand there. -/
def Proper : Written → Prop
  | word text => IsWord text
  | binary op left right => op ∈ standard.operators ∧ op.arity = 2 ∧ left.Proper ∧ right.Proper
  | unary op operand => op ∈ standard.operators ∧ op.arity = 1 ∧ operand.Proper
  | call f arguments => f ∈ standard.functions ∧ f.arity.accepts arguments.length = true ∧
    AllProper arguments

/-- All of them are proper. -/
def AllProper : List Written → Prop
  | [] => True
  | w :: rest => w.Proper ∧ AllProper rest

end

end Written

mutual

/-- Every operator and function is a standard one on as many operands or arguments as it takes, and
every leaf is what some text that may stand there stands for. -/
def Expr.WellFormed : Expr → Prop
  | .leaf v => ∃ text, IsWord text ∧ v = Expr.literal text
  | .apply op operands => op ∈ standard.operators ∧ operands.length = op.arity ∧
    Expr.AllWellFormed operands
  | .call f arguments => f ∈ standard.functions ∧ f.arity.accepts arguments.length = true ∧
    Expr.AllWellFormed arguments

/-- All of them are well-formed. -/
def Expr.AllWellFormed : List Expr → Prop
  | [] => True
  | e :: rest => e.WellFormed ∧ Expr.AllWellFormed rest

end

/-! ## The tokens of what is written -/

theorem charsOf_append (l m : List Token) : charsOf (l ++ m) = charsOf l ++ charsOf m :=
  List.flatMap_append

theorem charsOf_intercalate (ls : List (List Token)) :
    charsOf ([.separator].intercalate ls) = [','].intercalate (ls.map charsOf) := by
  induction ls with
  | nil => rfl
  | cons l ls ih =>
    cases ls with
    | nil => simp
    | cons m ls =>
      rw [List.intercalate_cons_cons, charsOf_append, charsOf_append, ih]
      exact List.intercalate_cons_cons.symm

namespace Written

/-- Puts the tokens of an operand in brackets, if it is an operation. -/
def grouped (w : Written) (tokens : List Token) : List Token :=
  if w.isOperation then .leftParen :: (tokens ++ [.rightParen]) else tokens

mutual

/-- The tokens that are written. -/
def tokens : Written → List Token
  | word text => [.word text]
  | binary op left right =>
    left.grouped left.tokens ++ .operator op :: right.grouped right.tokens
  | unary op operand => .operator op :: operand.grouped operand.tokens
  | call f arguments =>
    .function f :: .leftParen :: ([.separator].intercalate (tokensEach arguments) ++ [.rightParen])

/-- The tokens that are written for each of some expressions. -/
def tokensEach : List Written → List (List Token)
  | [] => []
  | w :: rest => w.tokens :: tokensEach rest

end

theorem toList_bracketed {w : Written} {text : String} {l : List Token}
    (h : text.toList = charsOf l) : (w.bracketed text).toList = charsOf (w.grouped l) := by
  unfold bracketed grouped
  by_cases hw : w.isOperation = true
  · rw [if_pos hw, if_pos hw, String.toList_append, String.toList_append, h]
    show _ = '(' :: charsOf (l ++ [.rightParen])
    rw [charsOf_append]
    rfl
  · rw [if_neg hw, if_neg hw, h]

mutual

/-- What is written consists of the texts of the tokens. -/
theorem toList_text : ∀ w : Written, w.text.toList = charsOf w.tokens
  | word name => (List.append_nil name.toList).symm
  | binary op left right => by
    rw [text, tokens, String.toList_append, String.toList_append,
      toList_bracketed (toList_text left), toList_bracketed (toList_text right), charsOf_append,
      List.append_assoc]
    rfl
  | unary op operand => by
    rw [text, tokens, String.toList_append, toList_bracketed (toList_text operand)]
    rfl
  | call f arguments => by
    have harguments : (",".intercalate (texts arguments)).toList =
        charsOf ([.separator].intercalate (tokensEach arguments)) := by
      rw [String.toList_intercalate, toList_texts arguments, charsOf_intercalate]
      rfl
    rw [text, tokens, String.toList_append, String.toList_append, String.toList_append,
      harguments]
    show _ = f.name.toList ++ '(' :: charsOf (_ ++ [.rightParen])
    rw [charsOf_append]
    simp [charsOf, Token.text]

theorem toList_texts : ∀ ws : List Written,
    (texts ws).map String.toList = (tokensEach ws).map charsOf
  | [] => rfl
  | w :: rest => by
    rw [texts, tokensEach, List.map_cons, List.map_cons, toList_text w, toList_texts rest]

end

end Written

/-! ### Spacing -/

/-- The tokens may stand wherever an operand may begin, and in front of whatever may follow the end
of an operand. -/
def Stands (l : List Token) : Prop :=
  ∀ last? more, last?.all Token.opens = true →
    (∀ t : Token, t.ends = true → Spaced (some t) more) → Spaced last? (l ++ more)

theorem stands_word {name : String} (h : IsWord name) : Stands [.word name] :=
  fun _ _ opens after => ⟨⟨h, opens⟩, after _ rfl⟩

theorem Stands.group {l : List Token} (h : Stands l) :
    Stands (.leftParen :: (l ++ [.rightParen])) := by
  intro last? more _ after
  rw [List.cons_append, List.append_assoc]
  exact ⟨trivial, h (some .leftParen) _ rfl fun _ _ => ⟨trivial, after .rightParen rfl⟩⟩

theorem Stands.binary {l r : List Token} {op : Operator} (hl : Stands l) (hr : Stands r)
    (known : op ∈ standard.operators) : Stands (l ++ .operator op :: r) := by
  intro last? more opens after
  rw [List.append_assoc]
  exact hl last? _ opens fun t ends =>
    ⟨⟨known, fun _ => ends⟩, hr (some (.operator op)) more rfl after⟩

theorem Stands.unary {r : List Token} {op : Operator} (hr : Stands r)
    (known : op ∈ standard.operators) (kind : op.arity = 1) : Stands (.operator op :: r) := by
  have hall : ∀ op ∈ standard.operators, op.arity = 1 → op.symbol ≠ "-" := by decide
  intro last? more _ after
  exact ⟨⟨known, fun h => absurd h (hall op known kind)⟩,
    hr (some (.operator op)) more rfl after⟩

theorem spaced_arguments {ls : List (List Token)} (h : ∀ l ∈ ls, Stands l) {t : Token}
    (opens : t.opens = true) {more : List Token} (after : ∀ u, Spaced (some u) more) :
    Spaced (some t) ([.separator].intercalate ls ++ more) := by
  induction ls generalizing t with
  | nil => exact after t
  | cons l ls ih =>
    have hl := h l List.mem_cons_self
    cases ls with
    | nil =>
      rw [List.intercalate_singleton]
      exact hl (some t) more opens fun u _ => after u
    | cons m ls =>
      have hrest := ih (fun k hk => h k (List.mem_cons_of_mem l hk)) (t := .separator) rfl
      rw [List.intercalate_cons_cons, List.append_assoc, List.append_assoc]
      exact hl (some t) _ opens fun u _ => ⟨trivial, hrest⟩

theorem stands_call {f : Function} {ls : List (List Token)} (known : f ∈ standard.functions)
    (h : ∀ l ∈ ls, Stands l) :
    Stands (.function f :: .leftParen :: ([.separator].intercalate ls ++ [.rightParen])) := by
  intro last? more opens after
  rw [List.cons_append, List.cons_append, List.append_assoc]
  exact ⟨⟨known, opens⟩, trivial,
    spaced_arguments h rfl fun u => ⟨trivial, after .rightParen rfl⟩⟩

namespace Written

theorem stands_grouped {w : Written} (h : Stands w.tokens) : Stands (w.grouped w.tokens) := by
  unfold grouped
  split
  · exact h.group
  · exact h

mutual

/-- The texts of what is written do not run into each other. -/
theorem stands : ∀ w : Written, w.Proper → Stands w.tokens
  | word _, h => stands_word h
  | binary _ left right, ⟨known, _, hl, hr⟩ =>
    (stands_grouped (stands left hl)).binary (stands_grouped (stands right hr)) known
  | unary _ operand, ⟨known, kind, h⟩ => (stands_grouped (stands operand h)).unary known kind
  | call _ arguments, ⟨known, _, h⟩ => stands_call known (standsEach arguments h)

theorem standsEach : ∀ ws : List Written, AllProper ws → ∀ l ∈ tokensEach ws, Stands l
  | [], _ => nofun
  | w :: rest, ⟨hw, hrest⟩ => by
    intro l hl
    rcases List.mem_cons.1 hl with rfl | hl
    · exact stands w hw
    · exact standsEach rest hrest l hl

end

end Written

/-! ## Reading what is written -/

/-- The tokens are read as the whole of `t` between two brackets or commas, or between the ends. -/
def Whole (l : List Token) (t : Expr) : Prop :=
  ∀ {opened : Enclosing} {rest : List Token} {e : Expr}, rest.head? ≠ some .leftParen →
    (∀ x level, level.finish x = t → Reads (some x) level opened rest e) →
      Reads none .start opened (l ++ rest) e

theorem operand_word (name : String) : Operand [.word name] (.leaf (Expr.literal name)) :=
  fun apart after => .word apart after

theorem Operand.whole {l : List Token} {t : Expr} (h : Operand l t) : Whole l t :=
  fun apart after => h apart (after t .start rfl)

theorem Whole.group {l : List Token} {t : Expr} (h : Whole l t) :
    Operand (.leftParen :: (l ++ [.rightParen])) t := by
  intro level opened rest e _ after
  rw [List.cons_append, List.append_assoc]
  refine .opening (h nofun fun x inner finished => .closing ?_)
  rw [finished]
  exact after

theorem Operand.binary {l r : List Token} {t u : Expr} {op : Operator} (hl : Operand l t)
    (hr : Operand r u) (kind : op.arity = 2) :
    Whole (l ++ .operator op :: r) (.apply op [t, u]) := by
  intro opened rest e apart after
  have hbinary : op.isUnary = false := by simp [Operator.isUnary, kind]
  have next : (.operator op :: (r ++ rest)).head? ≠ some Token.leftParen := by simp
  rw [List.append_assoc]
  exact hl next (.binary hbinary (hr apart (after u _ rfl)))

theorem Operand.unary {r : List Token} {u : Expr} {op : Operator} (hr : Operand r u)
    (kind : op.arity = 1) : Whole (.operator op :: r) (.apply op [u]) := by
  intro opened rest e apart after
  have hunary : op.isUnary = true := by simp [Operator.isUnary, kind]
  exact .unary hunary (hr apart (after u _ rfl))

namespace Written

theorem exists_tokens : ∀ w : Written, ∃ t l, w.tokens = t :: l ∧ t ≠ .rightParen
  | word name => ⟨.word name, [], rfl, nofun⟩
  | binary op left right => by
    obtain ⟨t, l, hl, ht⟩ := exists_tokens left
    rw [tokens, grouped, hl]
    split
    · exact ⟨.leftParen, _, rfl, nofun⟩
    · exact ⟨t, _, rfl, ht⟩
  | unary op _ => ⟨.operator op, _, rfl, nofun⟩
  | call f _ => ⟨.function f, _, rfl, nofun⟩

/-- Arguments are read one by one, and the closing bracket completes the call. -/
theorem reads_arguments {f : Function} {w : Written} {ws : List Written}
    (h : ∀ x ∈ w :: ws, Whole x.tokens x.expr) (read : List Expr)
    (accepted : f.arity.accepts (read ++ exprs (w :: ws)).length = true) {level : Level}
    {opened : Enclosing} {rest : List Token} {e : Expr}
    (after : Reads (some (.call f (read ++ exprs (w :: ws)))) level opened rest e) :
    Reads none .start ((.arguments f read, level) :: opened)
      ([.separator].intercalate (tokensEach (w :: ws)) ++ .rightParen :: rest) e := by
  have first : Whole w.tokens w.expr := h w List.mem_cons_self
  induction ws generalizing w read with
  | nil =>
    rw [tokensEach, tokensEach, List.intercalate_singleton]
    refine first nofun fun x inner finished => .closingCall ?_ after
    rw [finished]
    exact ofCall_of_accepts accepted
  | cons w' ws ih =>
    have hmore : ∀ x ∈ w' :: ws, Whole x.tokens x.expr := fun x hx => h x (.tail w hx)
    have hread : read ++ exprs (w :: w' :: ws) = (read ++ [w.expr]) ++ exprs (w' :: ws) := by
      rw [exprs, List.append_assoc]
      rfl
    rw [hread] at accepted after
    rw [tokensEach, tokensEach, List.intercalate_cons_cons, List.append_assoc, List.append_assoc]
    refine first nofun fun x inner finished => .next ?_
    rw [finished]
    exact ih hmore _ accepted after (hmore w' List.mem_cons_self)

theorem operand_call {f : Function} {arguments : List Written}
    (h : ∀ x ∈ arguments, Whole x.tokens x.expr)
    (accepted : f.arity.accepts (exprs arguments).length = true) :
    Operand (call f arguments).tokens (call f arguments).expr := by
  intro level opened rest e apart after
  rw [tokens, List.cons_append, List.cons_append, List.append_assoc]
  cases arguments with
  | nil => exact .emptyCall (ofCall_of_accepts accepted) after
  | cons w ws =>
    refine .call ?_ (reads_arguments h [] accepted after)
    obtain ⟨t, l, hl, ht⟩ := exists_tokens w
    cases ws <;> simpa [tokensEach, hl] using ht

theorem length_exprs (ws : List Written) : (exprs ws).length = ws.length := by
  induction ws with
  | nil => rfl
  | cons w ws ih => rw [exprs, List.length_cons, List.length_cons, ih]

mutual

/-- What is written in brackets or needs none is read as one operand, and all of what is written as
a whole. -/
theorem reads : ∀ w : Written, w.Proper →
    Operand (w.grouped w.tokens) w.expr ∧ Whole w.tokens w.expr
  | word name, _ => ⟨operand_word name, Operand.whole (operand_word name)⟩
  | binary op left right, ⟨_, kind, hl, hr⟩ =>
    have whole : Whole (binary op left right).tokens (binary op left right).expr :=
      Operand.binary (reads left hl).1 (reads right hr).1 kind
    ⟨Whole.group whole, whole⟩
  | unary op operand, ⟨_, kind, h⟩ =>
    have whole : Whole (unary op operand).tokens (unary op operand).expr :=
      Operand.unary (reads operand h).1 kind
    ⟨Whole.group whole, whole⟩
  | call f arguments, ⟨_, accepted, h⟩ =>
    have operand : Operand (call f arguments).tokens (call f arguments).expr :=
      operand_call (readsEach arguments h) (by rwa [length_exprs])
    ⟨operand, Operand.whole operand⟩

theorem readsEach : ∀ ws : List Written, AllProper ws → ∀ w ∈ ws, Whole w.tokens w.expr
  | [], _ => nofun
  | w :: rest, ⟨hw, hrest⟩ => by
    have first : Whole w.tokens w.expr := (reads w hw).2
    intro x hx
    rcases List.mem_cons.1 hx with rfl | hx
    · exact first
    · exact readsEach rest hrest x hx

end

/-! ## Reading back -/

mutual

/-- Every well-formed expression can be written down. -/
theorem exists_of_wellFormed : ∀ e : Expr, e.WellFormed → ∃ w : Written, w.Proper ∧ w.expr = e
  | .leaf _, ⟨name, hname, hv⟩ => ⟨word name, hname, by rw [expr, hv]⟩
  | .apply op operands, ⟨known, count, h⟩ => by
    obtain ⟨ws, hws, rfl⟩ := exists_of_allWellFormed operands h
    rw [length_exprs] at count
    have harity := regular_standard.arity op known
    match ws, hws, count with
    | [w], ⟨hw, _⟩, count => exact ⟨unary op w, ⟨known, count.symm, hw⟩, rfl⟩
    | [left, right], ⟨hl, hr, _⟩, count =>
      exact ⟨binary op left right, ⟨known, count.symm, hl, hr⟩, rfl⟩
    | [], _, count => simp at count; omega
    | _ :: _ :: _ :: _, _, count => simp at count; omega
  | .call f arguments, ⟨known, accepted, h⟩ => by
    obtain ⟨ws, hws, rfl⟩ := exists_of_allWellFormed arguments h
    rw [length_exprs] at accepted
    exact ⟨call f ws, ⟨known, accepted, hws⟩, rfl⟩

theorem exists_of_allWellFormed : ∀ es : List Expr, Expr.AllWellFormed es →
    ∃ ws : List Written, AllProper ws ∧ exprs ws = es
  | [], _ => ⟨[], trivial, rfl⟩
  | e :: rest, ⟨he, hrest⟩ => by
    obtain ⟨w, hw, rfl⟩ := exists_of_wellFormed e he
    obtain ⟨ws, hws, rfl⟩ := exists_of_allWellFormed rest hrest
    exact ⟨w :: ws, ⟨hw, hws⟩, rfl⟩

end

mutual

theorem wellFormed_expr : ∀ w : Written, w.Proper → w.expr.WellFormed
  | word name, h => ⟨name, h, rfl⟩
  | binary _ left right, ⟨known, kind, hl, hr⟩ =>
    ⟨known, kind.symm, wellFormed_expr left hl, wellFormed_expr right hr, trivial⟩
  | unary _ operand, ⟨known, kind, h⟩ =>
    ⟨known, kind.symm, wellFormed_expr operand h, trivial⟩
  | call _ arguments, ⟨known, accepted, h⟩ =>
    ⟨known, by rwa [length_exprs], allWellFormed_exprs arguments h⟩

theorem allWellFormed_exprs : ∀ ws : List Written, AllProper ws → Expr.AllWellFormed (exprs ws)
  | [], _ => trivial
  | w :: rest, ⟨hw, hrest⟩ => ⟨wellFormed_expr w hw, allWellFormed_exprs rest hrest⟩

end

/-- What is written is split into the tokens that were written. -/
theorem tokenize_text {w : Written} (h : w.Proper) : tokenize standard w.text = .ok w.tokens := by
  have spaced : Spaced none w.tokens := by
    have hstands := stands w h none [] rfl fun _ _ => trivial
    rwa [List.append_nil] at hstands
  have cleaned : w.text.toList.filter (!Token.isBlank ·) = charsOf w.tokens := by
    rw [toList_text]
    refine List.filter_eq_self.2 fun c hc => ?_
    rw [spaced.isBlank_eq_false c hc]
    rfl
  have hscan := scan_spaced spaced
  unfold tokenize
  rw [cleaned]
  cases hchars : charsOf w.tokens with
  | nil =>
    obtain ⟨t, l, hl, -⟩ := exists_tokens w
    rw [hchars, hl] at hscan
    cases hscan
  | cons c cs =>
    rw [hchars] at hscan
    exact hscan

end Written

/-- **Reading back.** The well-formed expressions are those that can be written down, and what is
written down is read as the expression that was written. -/
theorem parse_text :
    (∀ e : Expr, e.WellFormed ↔ ∃ w : Written, w.Proper ∧ w.expr = e) ∧
      ∀ w : Written, w.Proper → Expr.parse standard w.text = .ok w.expr := by
  refine ⟨fun e => ⟨Written.exists_of_wellFormed e, ?_⟩, fun w h => ?_⟩
  · rintro ⟨w, h, rfl⟩
    exact w.wellFormed_expr h
  · have hrun : Reads none .start [] (w.tokens ++ []) w.expr :=
      (w.reads h).2 nofun fun x level finished => finished ▸ .done x level
    rw [List.append_nil] at hrun
    unfold Expr.parse
    rw [Written.tokenize_text h]
    exact ofTokens_eq_ok_iff.2 hrun

/-- `!(-5-(a+MAX(-.5,b)))` is read as it was written. -/
theorem parse_text_negation :
    let no : Operator := ⟨"!", 0, true, 1, .complement⟩
    let minus : Operator := ⟨"-", 1, true, 2, .difference⟩
    let plus : Operator := ⟨"+", 1, true, 2, .sum⟩
    let maximum : Function := ⟨"MAX", .atLeast 1, .largest, [], []⟩
    let w : Written := .unary no (.binary minus (.word "-5")
      (.binary plus (.word "a") (.call maximum [.word "-.5", .word "b"])))
    w.text = "!(-5-(a+MAX(-.5,b)))" ∧ w.Proper ∧ Expr.parse standard w.text = .ok w.expr := by
  intro no minus plus maximum w
  have proper : w.Proper :=
    ⟨by decide, rfl, by decide, rfl, (by decide : IsWord "-5"), by decide, rfl,
      (by decide : IsWord "a"), by decide, rfl, (by decide : IsWord "-.5"), (by decide : IsWord "b"),
      trivial⟩
  exact ⟨by decide, proper, parse_text.2 w proper⟩

end Skirmish.Formula
