import Skirmish.Proofs.Formula.Parsing

/-!
# Chains of binary operators

A chain `a₀ b₁ a₁ … bₙ aₙ` of operands and binary operators is read from left to right, with a stack
of operators that wait for their right operand. What comes of it is what splitting says
(`Splits`): the operator of least precedence is the root, the last one of that precedence if it
associates to the left and the first one otherwise, and both sides are split in the same way.

1. `Operand`: what is read as one operand wherever it stands; variables, groups and calls that build
   alone are such (`operand_of_builds`).
2. `complete_climb`: after a chain, completing the operators that wait comes to the same as with the
   split chain in its place.
3. `chain_builds`: so a chain builds as it splits.
-/

namespace Skirmish.Formula

/-! ## Operands -/

/-- A variable, a group or a complete call. -/
def IsOperand : List Token → Prop
  | [.word _] => True
  | .leftParen :: rest => Closes 1 rest
  | .function _ :: .leftParen :: rest => Closes 1 rest
  | _ => False

/-- The tokens are read as the operand `t`, wherever they stand. -/
def Operand (tokens : List Token) (t : Expr) : Prop :=
  ∀ {level : Level} {opened : Enclosing} {rest : List Token} {e : Expr},
    rest.head? ≠ some .leftParen → Reads (some t) level opened rest e →
      Reads none level opened (tokens ++ rest) e

/-- **Operands.** A variable, a group or a call that builds alone is read the same way
everywhere. -/
theorem operand_of_builds {tokens : List Token} {t : Expr} (shape : IsOperand tokens)
    (builds : Expr.ofTokens tokens = .ok t) : Operand tokens t := by
  intro level opened rest e apart after
  have hrun := ofTokens_eq_ok_iff.1 builds
  match tokens, shape, hrun with
  | [.word name], _, .word _ more =>
    obtain rfl := more.eq_finish
    exact .word apart after
  | .leftParen :: inner, shape, .opening more =>
    exact .opening (more.inside after [] .group rfl shape)
  | .function f :: .leftParen :: inner, shape, .call nonempty more =>
    exact .call (Closes.head?_append_ne (n := 0) shape nonempty)
      (more.inside after [] (.arguments f []) rfl shape)
  | .function f :: .leftParen :: .rightParen :: inner, shape, .emptyCall accepted more =>
    have ends : Closes 0 inner := shape
    obtain rfl := ends.eq_nil
    obtain rfl := more.eq_finish
    exact .emptyCall accepted after

/-! ## Chains -/

/-- A binary operator with the operand after it, and what the operand builds alone. -/
structure Link where
  op : Operator
  operand : List Token
  tree : Expr

namespace Link

/-- The tokens of a link. -/
def tokens (l : Link) : List Token := .operator l.op :: l.operand

/-- A link apart from its tokens. -/
def step (l : Link) : Operator × Expr := (l.op, l.tree)

/-- The operator is one of the vocabulary and binary, and the operand is a variable, a group or a
call that builds alone. -/
structure Proper (v : Vocabulary) (l : Link) : Prop where
  known : l.op ∈ v.operators
  binary : l.op.arity = 2
  shape : IsOperand l.operand
  builds : Expr.ofTokens l.operand = .ok l.tree

end Link

/-- An operator of least precedence among those before it and after it: the last one if it
associates to the left, the first one if not. -/
structure Pivot (before : List (Operator × Expr)) (op : Operator)
    (after : List (Operator × Expr)) : Prop where
  before_le : ∀ s ∈ before, op.precedence ≤ s.1.precedence
  after_le : ∀ s ∈ after, op.precedence ≤ s.1.precedence
  last : op.leftAssociative = true → ∀ s ∈ after, op.precedence ≠ s.1.precedence
  first : op.leftAssociative = false → ∀ s ∈ before, op.precedence ≠ s.1.precedence

/-- What splitting a chain gives. -/
inductive Splits : Expr → List (Operator × Expr) → Expr → Prop
  | operand (t : Expr) : Splits t [] t
  | pivot {t u x y : Expr} {before after : List (Operator × Expr)} {op : Operator}
      (pivot : Pivot before op after) (left : Splits t before x) (right : Splits u after y) :
      Splits t (before ++ (op, u) :: after) (.apply op [x, y])

theorem Splits.single (t u : Expr) (op : Operator) : Splits t [(op, u)] (.apply op [t, u]) := by
  have hpivot : Pivot [] op [] := ⟨nofun, nofun, nofun, nofun⟩
  exact .pivot hpivot (.operand t) (.operand u)

/-- Operators of equal precedence in a chain associate to the same side. -/
def Uniform (chain : List (Operator × Expr)) : Prop :=
  ∀ s ∈ chain, ∀ t ∈ chain, s.1.precedence = t.1.precedence →
    s.1.leftAssociative = t.1.leftAssociative

theorem Uniform.sublist {chain part : List (Operator × Expr)} (h : Uniform chain)
    (hp : part.Sublist chain) : Uniform part :=
  fun s hs t ht => h s (hp.subset hs) t (hp.subset ht)

/-- Every chain has a pivot. -/
theorem exists_pivot {chain : List (Operator × Expr)} (huniform : Uniform chain)
    (hne : chain ≠ []) : ∃ before op u after,
      chain = before ++ (op, u) :: after ∧ Pivot before op after := by
  induction chain with
  | nil => exact absurd rfl hne
  | cons s rest ih =>
    cases rest with
    | nil => exact ⟨[], s.1, s.2, [], rfl, nofun, nofun, nofun, nofun⟩
    | cons r rest =>
      obtain ⟨before, op, u, after, hchain, h⟩ :=
        ih (huniform.sublist (List.sublist_cons_self s (r :: rest))) nofun
      have hop : (op, u) ∈ r :: rest := by rw [hchain]; simp
      have hsides : s.1.precedence = op.precedence → s.1.leftAssociative = op.leftAssociative :=
        huniform s (by simp) (op, u) (List.mem_cons_of_mem s hop)
      have hle : ∀ x ∈ r :: rest, op.precedence ≤ x.1.precedence := by
        rw [hchain]
        intro x hx
        rcases List.mem_append.1 hx with hx | hx
        · exact h.before_le x hx
        · rcases List.mem_cons.1 hx with rfl | hx
          · exact Nat.le_refl _
          · exact h.after_le x hx
      -- The pivot of the rest stays one, unless the operator in front of it comes before it.
      by_cases hs : op.precedence < s.1.precedence ∨
          op.precedence = s.1.precedence ∧ op.leftAssociative = true
      · refine ⟨s :: before, op, u, after, by rw [hchain]; rfl, ?_, h.after_le, h.last, ?_⟩
        · intro x hx
          rcases List.mem_cons.1 hx with rfl | hx
          · omega
          · exact h.before_le x hx
        · intro hright x hx
          rcases List.mem_cons.1 hx with rfl | hx
          · rcases hs with hs | ⟨-, hleft⟩
            · omega
            · rw [hleft] at hright; cases hright
          · exact h.first hright x hx
      · have hmin : s.1.precedence ≤ op.precedence := by omega
        refine ⟨[], s.1, s.2, r :: rest, rfl, nofun, ?_, ?_, nofun⟩
        · intro x hx
          exact Nat.le_trans hmin (hle x hx)
        · intro hleft x hx heq
          have hxle := hle x hx
          have hsame : s.1.precedence = op.precedence := by omega
          exact hs (.inr ⟨hsame.symm, (hsides hsame).symm.trans hleft⟩)

/-- **Existence.** Every chain splits. -/
theorem exists_splits {t : Expr} {chain : List (Operator × Expr)} (huniform : Uniform chain) :
    ∃ e, Splits t chain e := by
  generalize hn : chain.length = n
  induction n using Nat.strongRecOn generalizing t chain with
  | ind n ih =>
    by_cases hne : chain = []
    · subst hne
      exact ⟨t, .operand t⟩
    · obtain ⟨before, op, u, after, rfl, h⟩ := exists_pivot huniform hne
      rw [List.length_append, List.length_cons] at hn
      obtain ⟨x, hx⟩ := ih before.length (by omega)
        (huniform.sublist (List.sublist_append_left ..)) rfl
      obtain ⟨y, hy⟩ := ih after.length (by omega)
        (huniform.sublist ((List.sublist_cons_self ..).trans (List.sublist_append_right ..))) rfl
      exact ⟨_, .pivot h hx hy⟩

/-! ## Climbing -/

theorem Operator.rightFloor_of_left {op : Operator} (h : op.leftAssociative = true) :
    op.rightFloor = op.precedence + 1 := by
  unfold rightFloor; rw [if_pos h]

theorem Operator.rightFloor_of_right {op : Operator} (h : op.leftAssociative = false) :
    op.rightFloor = op.precedence := by
  unfold rightFloor; rw [if_neg (ne_true_of_eq_false h)]

theorem Operator.precedence_le_rightFloor (op : Operator) : op.precedence ≤ op.rightFloor := by
  unfold rightFloor; split <;> omega

/-- The operators before a pivot hold their right operands against it. -/
theorem Pivot.lt_rightFloor {before after : List (Operator × Expr)} {op : Operator} {u : Expr}
    (h : Pivot before op after) (huniform : Uniform (before ++ (op, u) :: after)) :
    ∀ s ∈ before, op.precedence < s.1.rightFloor := by
  intro s hs
  have hle := h.before_le s hs
  have hfloor := s.1.precedence_le_rightFloor
  by_cases heq : op.precedence = s.1.precedence
  · have hside : op.leftAssociative = s.1.leftAssociative :=
      huniform (op, u) (by simp) s (by simp [hs]) heq
    cases hop : op.leftAssociative with
    | true => rw [Operator.rightFloor_of_left (hside.symm.trans hop)]; omega
    | false => exact absurd heq (h.first hop s hs)
  · omega

/-- The right operand of a pivot has room for the operators after it. -/
theorem Pivot.rightFloor_le {before after : List (Operator × Expr)} {op : Operator}
    (h : Pivot before op after) : ∀ s ∈ after, op.rightFloor ≤ s.1.precedence := by
  intro s hs
  have hle := h.after_le s hs
  cases hop : op.leftAssociative with
  | true =>
    have hne := h.last hop s hs
    rw [Operator.rightFloor_of_left hop]
    omega
  | false => rw [Operator.rightFloor_of_right hop]; exact hle

/-- Reading a chain: the operand that is complete at its end, and what is pending then. -/
def Level.climb (e : Expr) (l : Level) : List (Operator × Expr) → Expr × Level
  | [] => (e, l)
  | (op, t) :: rest => climb t (l.pushBinary e op) rest

theorem Level.climb_append (e : Expr) (l : Level) (before after : List (Operator × Expr)) :
    Level.climb e l (before ++ after) =
      Level.climb (Level.climb e l before).1 (Level.climb e l before).2 after := by
  induction before generalizing e l with
  | nil => rfl
  | cons s before ih => exact ih s.2 _

/-- Completes the operators that wait until one of precedence `p` may follow; all of them, where
none follows. -/
def Level.complete (p : Option Nat) (e : Expr) (l : Level) : Expr × Level :=
  match p with
  | some p => Level.settle p e l.floor l.waiting
  | none => (l.finish e, .start)

theorem Level.settle_of_le {p : Nat} {e : Expr} {l : Level} (h : l.floor ≤ p) :
    Level.settle p e l.floor l.waiting = (e, l) := by
  obtain ⟨floor, waiting⟩ := l
  cases waiting with
  | nil => rfl
  | cons w waiting =>
    show (if floor ≤ p then _ else _) = _
    rw [if_pos h]

theorem Level.complete_fill {p : Option Nat} {e : Expr} {floor outer : Nat} {w : Waiting}
    {waiting : List (Waiting × Nat)} (h : ∀ q, p = some q → q < floor) :
    Level.complete p e ⟨floor, (w, outer) :: waiting⟩ =
      Level.complete p (w.fill e) ⟨outer, waiting⟩ := by
  cases p with
  | none => rfl
  | some q =>
    show (if floor ≤ q then _ else _) = _
    rw [if_neg (Nat.not_le.2 (h q rfl))]
    rfl

/-- **Climbing.** After a chain that the level has room for, completing the operators that wait
comes to the same as with the split chain in its place. -/
theorem complete_climb {t e : Expr} {chain : List (Operator × Expr)} (h : Splits t chain e)
    (huniform : Uniform chain) {l : Level} (room : ∀ s ∈ chain, l.floor ≤ s.1.precedence)
    {p : Option Nat} (tight : ∀ q, p = some q → ∀ s ∈ chain, q < s.1.rightFloor) :
    Level.complete p (Level.climb t l chain).1 (Level.climb t l chain).2 =
      Level.complete p e l := by
  induction h generalizing l p with
  | operand t => rfl
  | @pivot t u x y before after op pivot left right ihl ihr =>
    have hbefore : Uniform before := huniform.sublist (List.sublist_append_left ..)
    have hafter : Uniform after :=
      huniform.sublist ((List.sublist_cons_self ..).trans (List.sublist_append_right ..))
    -- The operator finds the left side complete.
    have hleft : Level.settle op.precedence (Level.climb t l before).1
        (Level.climb t l before).2.floor (Level.climb t l before).2.waiting = (x, l) :=
      (ihl (p := some op.precedence) hbefore (fun s hs => room s (by simp [hs]))
        (by rintro q ⟨⟩; exact pivot.lt_rightFloor huniform)).trans
        (Level.settle_of_le (room (op, u) (by simp)))
    rw [Level.climb_append]
    show Level.complete p (Level.climb u (Level.pushBinary _ _ op) after).1
      (Level.climb u (Level.pushBinary _ _ op) after).2 = _
    rw [Level.pushBinary_eq _ _ op hleft]
    rw [ihr hafter pivot.rightFloor_le fun q hq s hs => tight q hq s (by simp [hs])]
    exact Level.complete_fill fun q hq => tight q hq (op, u) (by simp)

theorem finish_climb {t e : Expr} {chain : List (Operator × Expr)} (h : Splits t chain e)
    (huniform : Uniform chain) :
    (Level.climb t .start chain).2.finish (Level.climb t .start chain).1 = e :=
  congrArg Prod.fst
    (complete_climb h huniform (l := .start) (p := none) (fun _ _ => Nat.zero_le _) nofun)

/-! ## Chains of tokens -/

theorem reads_links {links : List Link} {x e : Expr} {level : Level} {opened : Enclosing}
    {rest : List Token}
    (hl : ∀ l ∈ links, l.op.isUnary = false ∧ Operand l.operand l.tree)
    (apart : rest.head? ≠ some .leftParen)
    (after : Reads (some (Level.climb x level (links.map Link.step)).1)
      (Level.climb x level (links.map Link.step)).2 opened rest e) :
    Reads (some x) level opened (links.flatMap Link.tokens ++ rest) e := by
  induction links generalizing x level with
  | nil => exact after
  | cons l links ih =>
    obtain ⟨hbinary, hoperand⟩ := hl l List.mem_cons_self
    have hnext : (links.flatMap Link.tokens ++ rest).head? ≠ some .leftParen := by
      cases links with
      | nil => exact apart
      | cons => exact nofun
    have hrest := ih (fun l' hl' => hl l' (List.mem_cons_of_mem l hl')) after
    rw [List.flatMap_cons, List.append_assoc]
    exact .binary hbinary (hoperand hnext hrest)

/-- Tokens that are read as a chain build what the chain splits into, and that alone. -/
theorem builds_as_split {tokens : List Token} {t : Expr} {chain : List (Operator × Expr)}
    (huniform : Uniform chain)
    (h : Reads none .start [] tokens
      ((Level.climb t .start chain).2.finish (Level.climb t .start chain).1)) :
    ∃ e, Expr.ofTokens tokens = .ok e ∧ ∀ e', Splits t chain e' ↔ e' = e := by
  obtain ⟨e, he⟩ := exists_splits (t := t) huniform
  rw [finish_climb he huniform] at h
  refine ⟨e, ofTokens_eq_ok_iff.2 h, fun e' => ⟨fun he' => ?_, fun heq => heq ▸ he⟩⟩
  rw [← finish_climb he' huniform, finish_climb he huniform]

/-- Operators are written before one operand or between two, and their precedences are small. -/
structure Vocabulary.Regular (v : Vocabulary) : Prop where
  arity : ∀ op ∈ v.operators, op.arity = 1 ∨ op.arity = 2
  precedence : ∀ op ∈ v.operators, op.precedence ≤ 254

/-- Operators of equal precedence associate to the same side. -/
def Vocabulary.OneSided (v : Vocabulary) : Prop :=
  ∀ op ∈ v.operators, ∀ op' ∈ v.operators, op.precedence = op'.precedence →
    op.leftAssociative = op'.leftAssociative

theorem regular_standard : Vocabulary.standard.Regular := ⟨by decide, by decide⟩

theorem oneSided_standard : Vocabulary.standard.OneSided := by
  unfold Vocabulary.OneSided; decide

theorem Vocabulary.OneSided.uniform {v : Vocabulary} (h : v.OneSided)
    {chain : List (Operator × Expr)} (known : ∀ s ∈ chain, s.1 ∈ v.operators) : Uniform chain :=
  fun s hs t ht => h s.1 (known s hs) t.1 (known t ht)

theorem Link.Proper.isUnary_eq {v : Vocabulary} {l : Link} (h : l.Proper v) :
    l.op.isUnary = false := by
  unfold Operator.isUnary
  rw [h.binary]
  rfl

theorem known_of_proper {v : Vocabulary} {links : List Link} (hl : ∀ l ∈ links, l.Proper v) :
    ∀ s ∈ links.map Link.step, s.1 ∈ v.operators := by
  intro s hs
  obtain ⟨l, hmem, rfl⟩ := List.mem_map.1 hs
  exact (hl l hmem).known

/-- A chain, with whatever follows it and is read as the rest of it. -/
theorem reads_chain {v : Vocabulary} {first : List Token} {t e : Expr} {links : List Link}
    {rest : List Token} (shape : IsOperand first) (builds : Expr.ofTokens first = .ok t)
    (hl : ∀ l ∈ links, l.Proper v) (apart : rest.head? ≠ some .leftParen)
    (after : Reads (some (Level.climb t .start (links.map Link.step)).1)
      (Level.climb t .start (links.map Link.step)).2 [] rest e) :
    Reads none .start [] (first ++ (links.flatMap Link.tokens ++ rest)) e := by
  refine operand_of_builds shape builds ?_ (reads_links (fun l hmem => ?_) apart after)
  · cases links with
    | nil => exact apart
    | cons => exact nofun
  · exact ⟨(hl l hmem).isUnary_eq, operand_of_builds (hl l hmem).shape (hl l hmem).builds⟩

/-- A unary operator of least precedence takes all that follows it. -/
theorem reads_unary {op : Operator} {rest : List Token} {r : Expr} (hunary : op.isUnary = true)
    (hleast : op.precedence = 0) (hr : Expr.ofTokens rest = .ok r) (level : Level) :
    Reads none level [] (.operator op :: rest) (level.finish (.apply op [r])) := by
  have hrun := (ofTokens_eq_ok_iff.1 hr).beneath ((.unary op, level.floor) :: level.waiting) rfl
  refine .unary hunary ?_
  unfold Level.pushUnary
  rw [hleast]
  exact hrun

/-- **Chains.** Let operators be unary or binary and those of equal precedence associate to the same
side. A chain of operands that are variables, groups or calls, each of which builds alone, builds
what it splits into and nothing else. In the standard vocabulary the last operand may also be a `!`
with all that follows it. -/
theorem chain_builds :
    (∀ v : Vocabulary, v.Regular → v.OneSided → ∀ (first : List Token) (t : Expr)
      (links : List Link), IsOperand first → Expr.ofTokens first = .ok t →
        (∀ l ∈ links, l.Proper v) →
        ∃ e, Expr.ofTokens (first ++ links.flatMap Link.tokens) = .ok e ∧
          ∀ e', Splits t (links.map Link.step) e' ↔ e' = e) ∧
    ∀ (first : List Token) (t : Expr) (links : List Link) (op no : Operator) (rest : List Token)
      (r : Expr), IsOperand first → Expr.ofTokens first = .ok t →
        (∀ l ∈ links, l.Proper .standard) → op ∈ Vocabulary.standard.operators → op.arity = 2 →
        Vocabulary.standard.operator? "!" = some no → Expr.ofTokens rest = .ok r →
        ∃ e, Expr.ofTokens (first ++
            (links.flatMap Link.tokens ++ .operator op :: .operator no :: rest)) = .ok e ∧
          ∀ e', Splits t (links.map Link.step ++ [(op, .apply no [r])]) e' ↔ e' = e := by
  constructor
  · intro v _ sides first t links shape builds hl
    refine builds_as_split (sides.uniform (known_of_proper hl)) ?_
    have hrun : Reads none .start [] (first ++ (links.flatMap Link.tokens ++ [])) _ :=
      reads_chain shape builds hl nofun (.done _ _)
    rwa [List.append_nil] at hrun
  · intro first t links op no rest r shape builds hl known binary hno hr
    obtain rfl : no = ⟨"!", 0, true, 1, .complement⟩ := Option.some.inj (hno.symm.trans rfl)
    refine builds_as_split (oneSided_standard.uniform fun s hs => ?_) ?_
    · rcases List.mem_append.1 hs with hs | hs
      · exact known_of_proper hl s hs
      · rw [List.mem_singleton.1 hs]
        exact known
    · have hbinary : op.isUnary = false := by unfold Operator.isUnary; rw [binary]; rfl
      rw [Level.climb_append]
      exact reads_chain shape builds hl nofun (.binary hbinary (reads_unary rfl rfl hr _))

/-- `a + b * c`, and `a + !b > c`. -/
theorem chain_builds_product :
    let plus : Operator := ⟨"+", 1, true, 2, .sum⟩
    let times : Operator := ⟨"*", 2, true, 2, .product⟩
    let greater : Operator := ⟨">", 0, true, 2, .greater⟩
    let no : Operator := ⟨"!", 0, true, 1, .complement⟩
    let word name := Expr.leaf (Expr.literal name)
    Expr.ofTokens [.word "a", .operator plus, .word "b", .operator times, .word "c"] =
        .ok (.apply plus [word "a", .apply times [word "b", word "c"]]) ∧
      Expr.ofTokens
          [.word "a", .operator plus, .operator no, .word "b", .operator greater, .word "c"] =
        .ok (.apply plus [word "a", .apply no [.apply greater [word "b", word "c"]]]) := by
  intro plus times greater no word
  constructor
  · obtain ⟨e, builds, splits⟩ := chain_builds.1 .standard regular_standard oneSided_standard
      [.word "a"] (word "a") [⟨plus, [.word "b"], word "b"⟩, ⟨times, [.word "c"], word "c"⟩]
      trivial rfl (by
        intro l hl
        rcases List.mem_cons.1 hl with rfl | hl
        · exact ⟨by decide, rfl, trivial, rfl⟩
        · rw [List.mem_singleton.1 hl]
          exact ⟨by decide, rfl, trivial, rfl⟩)
    have hpivot : Pivot [] plus [(times, word "c")] :=
      ⟨nofun, by simp [plus, times], by simp [plus, times], nofun⟩
    rw [(splits _).1 (.pivot hpivot (.operand _) (.single _ _ _))]
    exact builds
  · obtain ⟨e, builds, splits⟩ := chain_builds.2 [.word "a"] (word "a") [] plus no
      [.word "b", .operator greater, .word "c"] (.apply greater [word "b", word "c"])
      trivial rfl nofun (by decide) rfl rfl rfl
    rw [(splits _).1 (.single _ _ _)]
    exact builds

end Skirmish.Formula
