import Skirmish.Formula.Token

/-!
# Spacing

Tokens are written down without blanks. `Spaced` says of tokens that their texts do not run into
each other when they are written one behind the other. A minus is the delicate one: after a word or
a closing bracket it is an operator, and anywhere else it belongs to the number that follows.

1. `scan_run`, `scan_special`, `scan_minus`, `scan_sign`: what splitting does with a finished run,
   with a special character, and with a minus in either place.
2. `scan_spaced`: spaced tokens are what their texts are split into.
-/

namespace Skirmish.Formula

open Vocabulary

/-! ## Texts that do not run into each other -/

/-- A text that may stand at a leaf: it is not empty and names no function, there is no blank in it
and no special character but a minus in front of a number. -/
def IsWord (text : String) : Prop :=
  standard.function? text = none ∧ (∀ c ∈ text.toList, Token.isBlank c = false) ∧
    ∃ c rest, text.toList = c :: rest ∧ (∀ d ∈ rest, standard.isSpecial d = false) ∧
      (standard.isSpecial c = true → c = '-' ∧ rest.head?.any Token.startsNumber = true)

/-- `IsWord`, as a check. -/
def isWord (text : String) : Bool :=
  (standard.function? text).isNone && text.toList.all (!Token.isBlank ·) &&
    match text.toList with
    | [] => false
    | c :: rest => rest.all (!standard.isSpecial ·) &&
      (!standard.isSpecial c || c = '-' && rest.head?.any Token.startsNumber)

theorem isWord_iff {text : String} : isWord text = true ↔ IsWord text := by
  unfold isWord IsWord
  cases text.toList with
  | nil => simp
  | cons c rest => by_cases h : standard.isSpecial c = true <;> simp [h, and_assoc]

instance : DecidablePred IsWord := fun _ => decidable_of_iff _ isWord_iff

/-- Whether an operand may begin behind this token. -/
def Token.opens : Token → Bool
  | .operator _ | .leftParen | .separator => true
  | .word _ | .function _ | .rightParen => false

/-- Whether an operand may end with this token. -/
def Token.ends : Token → Bool
  | .word _ | .rightParen => true
  | .operator _ | .function _ | .leftParen | .separator => false

/-- Whether the text of a token may be written behind that of the one before it. -/
def Token.Fits (last? : Option Token) : Token → Prop
  | .word name => IsWord name ∧ last?.all Token.opens = true
  | .function f => f ∈ standard.functions ∧ last?.all Token.opens = true
  | .operator op => op ∈ standard.operators ∧ (op.symbol = "-" → last?.any Token.ends = true)
  | .leftParen | .rightParen | .separator => True

/-- The texts of the tokens may be written one behind the other, behind that of `last?`. -/
def Spaced : Option Token → List Token → Prop
  | _, [] => True
  | last?, t :: rest => t.Fits last? ∧ Spaced (some t) rest

/-- The characters of some tokens. -/
def charsOf (tokens : List Token) : List Char := tokens.flatMap (·.text.toList)

section Scan

variable {v : Vocabulary} {last? : Option Token} {run cs : List Char} {c : Char} {t : Token}

/-- Ordinary characters are added to the run. -/
theorem scan_ordinary (h : ∀ c ∈ cs, v.isSpecial c = false) (rest : List Char) :
    Token.scan v last? run (cs ++ rest) = Token.scan v last? (run ++ cs) rest := by
  induction cs generalizing run with
  | nil => rw [List.append_nil]; rfl
  | cons c cs ih =>
    have hc : (!v.isSpecial c) = true := by rw [h c List.mem_cons_self]; rfl
    rw [List.cons_append, Token.scan, if_pos hc, ih fun d hd => h d (List.mem_cons_of_mem c hd),
      List.append_assoc]
    rfl

/-- A special character ends the run, which is then a token of its own. A minus may follow only a
run that is a word. -/
theorem scan_run (complete : Token.ofRun v run = [t]) (unnamed : v.function? "" = none)
    (next : ∀ c rest, cs = c :: rest → v.isSpecial c = true ∧
      (c = '-' → v.function? (String.ofList run) = none ∧ ∃ name, t = .word name)) :
    Token.scan v last? run cs = (t :: ·) <$> Token.scan v (some t) [] cs := by
  cases cs with
  | nil => rw [Token.scan, Token.scan, complete]; rfl
  | cons c rest =>
    obtain ⟨special, minus⟩ := next c rest rfl
    have hc : ¬(!v.isSpecial c) = true := by rw [special]; nofun
    rw [Token.scan, Token.scan, if_neg hc, if_neg hc, complete]
    by_cases h : c = '-'
    · obtain ⟨hrun, name, rfl⟩ := minus h
      have hempty : v.function? (String.ofList []) = none := unnamed
      simp only [if_pos h, hrun, hempty, Option.isSome_none, Bool.false_eq_true, if_false]
      show _ <$> Token.scan v (some (Token.classify v "-")) [] rest = _ <$> _ <$> _
      cases Token.scan v (some (Token.classify v "-")) [] rest <;> rfl
    · simp only [if_neg h]
      cases Token.scan v (some (Token.classify v (String.singleton c))) [] rest <;> rfl

/-- A special character other than a minus is a token of its own. -/
theorem scan_special (special : v.isSpecial c = true) (hminus : c ≠ '-') (rest : List Char) :
    Token.scan v last? [] (c :: rest) =
      (Token.classify v (String.singleton c) :: ·) <$>
        Token.scan v (some (Token.classify v (String.singleton c))) [] rest := by
  have hc : ¬(!v.isSpecial c) = true := by rw [special]; nofun
  rw [Token.scan, if_neg hc]
  simp only [if_neg hminus]
  rfl

/-- Behind the end of an operand a minus is an operator. -/
theorem scan_minus (special : v.isSpecial '-' = true) (unnamed : v.function? "" = none)
    (ends : last?.any Token.ends = true) (rest : List Char) :
    Token.scan v last? [] ('-' :: rest) =
      (Token.classify v "-" :: ·) <$> Token.scan v (some (Token.classify v "-")) [] rest := by
  have hc : ¬(!v.isSpecial '-') = true := by rw [special]; nofun
  have hempty : v.function? (String.ofList []) = none := unnamed
  rw [Token.scan, if_neg hc]
  simp only [hempty, Option.isSome_none, Bool.false_eq_true, if_false]
  match last?, ends with
  | some (.word name), _ => rfl
  | some .rightParen, _ => rfl

/-- Where an operand may begin, a minus begins a run. -/
theorem scan_sign (special : v.isSpecial '-' = true) (unnamed : v.function? "" = none)
    (opens : last?.all Token.opens = true) (rest : List Char) :
    Token.scan v last? [] ('-' :: rest) = Token.scan v last? ['-'] rest := by
  have hc : ¬(!v.isSpecial '-') = true := by rw [special]; nofun
  have hempty : v.function? (String.ofList []) = none := unnamed
  have hmap (x : Except ParseError (List Token)) : (([] : List Token) ++ ·) <$> x = x := by
    cases x <;> rfl
  rw [Token.scan, if_neg hc]
  simp only [hempty, Option.isSome_none, Bool.false_eq_true, if_false]
  match last?, opens with
  | none, _ => exact hmap _
  | some (.operator op), _ => exact hmap _
  | some .leftParen, _ => exact hmap _
  | some .separator, _ => exact hmap _

end Scan

/-! ## Standard tokens -/

theorem standard_unnamed : standard.function? "" = none := by decide

/-- The symbol of an operator is a single special character. -/
theorem exists_symbol {op : Operator} (h : op ∈ standard.operators) :
    ∃ c, op.symbol.toList = [c] ∧ standard.isSpecial c = true ∧ Token.isBlank c = false := by
  have hall : ∀ op ∈ standard.operators, op.symbol.toList.length = 1 ∧
      op.symbol.toList.all (fun c => standard.isSpecial c && !Token.isBlank c) = true := by decide
  obtain ⟨hlength, hspecial⟩ := hall op h
  obtain ⟨c, hc⟩ := List.length_eq_one_iff.1 hlength
  rw [hc] at hspecial
  exact ⟨c, hc, by simpa using hspecial⟩

theorem classify_symbol {op : Operator} (h : op ∈ standard.operators) :
    Token.classify standard op.symbol = .operator op := by
  have hall : ∀ op ∈ standard.operators, Token.classify standard op.symbol = .operator op := by
    decide
  exact hall op h

theorem name_ordinary {f : Function} (h : f ∈ standard.functions) :
    ∀ c ∈ f.name.toList, standard.isSpecial c = false ∧ Token.isBlank c = false := by
  have hall : ∀ f ∈ standard.functions,
      f.name.toList.all (fun c => !standard.isSpecial c && !Token.isBlank c) = true := by decide
  simpa using hall f h

/-- No word is a special character alone. -/
theorem IsWord.toList_ne {text : String} (h : IsWord text) {c : Char}
    (hc : standard.isSpecial c = true) : text.toList ≠ [c] := by
  intro he
  obtain ⟨-, -, d, rest, htext, -, hminus⟩ := h
  obtain ⟨rfl, rfl⟩ := List.cons.inj (htext.symm.trans he)
  exact absurd (hminus hc).2 nofun

theorem IsWord.classify {text : String} (h : IsWord text) :
    Token.classify standard text = .word text := by
  have hsymbol : standard.operator? text = none := by
    cases hop : standard.operator? text with
    | none => rfl
    | some op =>
      obtain rfl : op.symbol = text := by
        simpa [operator?] using List.find?_some hop
      obtain ⟨c, hc, hspecial, -⟩ := exists_symbol (List.mem_of_find?_eq_some hop)
      exact absurd hc (h.toList_ne hspecial)
  have hleft : text ≠ "(" := fun he => h.toList_ne (c := '(') (by decide) (by rw [he]; rfl)
  have hright : text ≠ ")" := fun he => h.toList_ne (c := ')') (by decide) (by rw [he]; rfl)
  have hcomma : text ≠ "," := fun he => h.toList_ne (c := ',') (by decide) (by rw [he]; rfl)
  unfold Token.classify
  rw [h.1, hsymbol]
  dsimp only
  rw [if_neg hleft, if_neg hright, if_neg hcomma]

/-- A run that does not begin with a minus is a token. -/
theorem ofRun_of_ne {v : Vocabulary} {c : Char} {rest : List Char} (h : c ≠ '-') :
    Token.ofRun v (c :: rest) = [Token.classify v (String.ofList (c :: rest))] := by
  unfold Token.ofRun
  split
  · next he => cases he
  · next he => exact absurd (List.cons.inj he).1 h
  · rfl

/-- Neither is a run that is a negative number. -/
theorem ofRun_of_number {v : Vocabulary} {rest : List Char}
    (h : rest.head?.any Token.startsNumber = true) :
    Token.ofRun v ('-' :: rest) = [Token.classify v (String.ofList ('-' :: rest))] := by
  show (if rest.head?.any Token.startsNumber = true then _ else _) = _
  rw [if_pos h]

/-- The texts behind a word or a name begin with a special character, and behind a name that is no
minus. -/
theorem Spaced.next {t : Token} {tokens : List Token} (h : Spaced (some t) tokens)
    (closed : t.opens = false) {c : Char} {rest : List Char} (hc : charsOf tokens = c :: rest) :
    standard.isSpecial c = true ∧ (c = '-' → t.ends = true) := by
  cases tokens with
  | nil => cases hc
  | cons u tokens =>
    have hchars : u.text.toList ++ charsOf tokens = c :: rest := hc
    have hfits := h.1
    cases u with
    | word | function =>
      have hopens : t.opens = true := hfits.2
      rw [closed] at hopens
      cases hopens
    | operator op =>
      obtain ⟨d, hd, hspecial, -⟩ := exists_symbol hfits.1
      rw [Token.text, hd] at hchars
      obtain ⟨rfl, -⟩ := List.cons.inj hchars
      refine ⟨hspecial, fun hminus => hfits.2 ?_⟩
      rw [← String.toList_inj, hd, hminus]
      rfl
    | leftParen =>
      obtain rfl : '(' = c := (List.cons.inj hchars).1
      exact ⟨by decide, fun h => absurd h (by decide)⟩
    | rightParen =>
      obtain rfl : ')' = c := (List.cons.inj hchars).1
      exact ⟨by decide, fun h => absurd h (by decide)⟩
    | separator =>
      obtain rfl : ',' = c := (List.cons.inj hchars).1
      exact ⟨by decide, fun h => absurd h (by decide)⟩

section Tokens

variable {last? : Option Token} {tokens : List Token}

theorem scan_word {name : String} (word : IsWord name) (opens : last?.all Token.opens = true)
    (more : Spaced (some (.word name)) tokens) :
    Token.scan standard last? [] (name.toList ++ charsOf tokens) =
      (.word name :: ·) <$> Token.scan standard (some (.word name)) [] (charsOf tokens) := by
  have next c rest (hc : charsOf tokens = c :: rest) : standard.isSpecial c = true ∧
      (c = '-' → standard.function? (String.ofList name.toList) = none ∧
        ∃ n, Token.word name = .word n) :=
    ⟨(more.next rfl hc).1, fun _ => ⟨by rw [String.ofList_toList]; exact word.1, name, rfl⟩⟩
  have classified := word.classify
  obtain ⟨-, -, c, cs, hname, ordinary, minus⟩ := word
  rw [← String.ofList_toList (s := name), hname] at classified
  rw [hname] at next ⊢
  by_cases hc : standard.isSpecial c = true
  · -- The word is a negative number, and its minus begins the run.
    obtain ⟨rfl, number⟩ := minus hc
    have complete : Token.ofRun standard ('-' :: cs) = [.word name] := by
      rw [ofRun_of_number number, classified, ← hname, String.ofList_toList]
    rw [List.cons_append, scan_sign hc standard_unnamed opens, scan_ordinary ordinary]
    exact scan_run complete standard_unnamed next
  · have hne : c ≠ '-' := by rintro rfl; exact hc (by decide)
    have complete : Token.ofRun standard (c :: cs) = [.word name] := by
      rw [ofRun_of_ne hne, classified, ← hname, String.ofList_toList]
    rw [scan_ordinary fun d hd => ?_]
    · exact scan_run complete standard_unnamed next
    · rcases List.mem_cons.1 hd with rfl | hd
      · exact eq_false_of_ne_true hc
      · exact ordinary d hd

theorem scan_name {f : Function} (known : f ∈ standard.functions)
    (more : Spaced (some (.function f)) tokens) :
    Token.scan standard last? [] (f.name.toList ++ charsOf tokens) =
      (.function f :: ·) <$>
        Token.scan standard (some (.function f)) [] (charsOf tokens) := by
  have complete : Token.ofRun standard f.name.toList = [.function f] := by
    have hall : ∀ f ∈ standard.functions, Token.ofRun standard f.name.toList = [.function f] := by
      decide
    exact hall f known
  rw [scan_ordinary fun c hc => (name_ordinary known c hc).1]
  refine scan_run complete standard_unnamed fun c rest hc => ?_
  obtain ⟨hspecial, hminus⟩ := more.next rfl hc
  exact ⟨hspecial, fun h => absurd (hminus h) nofun⟩

/-- The text of a token is split off the texts behind it. -/
theorem scan_token {t : Token} (fits : t.Fits last?) (more : Spaced (some t) tokens) :
    Token.scan standard last? [] (t.text.toList ++ charsOf tokens) =
      (t :: ·) <$> Token.scan standard (some t) [] (charsOf tokens) := by
  cases t with
  | word name => exact scan_word fits.1 fits.2 more
  | function f => exact scan_name fits.1 more
  | operator op =>
    obtain ⟨c, hc, special, -⟩ := exists_symbol fits.1
    have hsymbol : op.symbol = String.singleton c := by
      rw [← String.toList_inj, hc, String.toList_singleton]
    have hclassify := classify_symbol fits.1
    rw [Token.text, hc]
    by_cases hminus : c = '-'
    · subst hminus
      have hscan := scan_minus special standard_unnamed (fits.2 hsymbol) (charsOf tokens)
      rw [hsymbol] at hclassify
      rwa [show Token.classify standard "-" = .operator op from hclassify] at hscan
    · have hscan : Token.scan standard last? [] (c :: charsOf tokens) = _ :=
        scan_special special hminus (charsOf tokens)
      rwa [← hsymbol, hclassify] at hscan
  | leftParen => exact scan_special (by decide) (by decide) _
  | rightParen => exact scan_special (by decide) (by decide) _
  | separator => exact scan_special (by decide) (by decide) _

/-- **Splitting.** Texts that do not run into each other are split into their tokens. -/
theorem scan_spaced (h : Spaced last? tokens) :
    Token.scan standard last? [] (charsOf tokens) = .ok tokens := by
  induction tokens generalizing last? with
  | nil => rfl
  | cons t tokens ih =>
    show Token.scan standard last? [] (t.text.toList ++ charsOf tokens) = _
    rw [scan_token h.1 h.2, ih h.2]
    rfl

theorem Spaced.isBlank_eq_false (h : Spaced last? tokens) :
    ∀ c ∈ charsOf tokens, Token.isBlank c = false := by
  induction tokens generalizing last? with
  | nil => exact nofun
  | cons t tokens ih =>
    intro c hc
    rcases List.mem_append.1 (show c ∈ t.text.toList ++ charsOf tokens from hc) with hc | hc
    · have fits := h.1
      cases t with
      | word name => exact fits.1.2.1 c hc
      | function f => exact (name_ordinary fits.1 c hc).2
      | operator op =>
        obtain ⟨d, hd, -, hblank⟩ := exists_symbol fits.1
        rw [Token.text, hd] at hc
        rwa [List.mem_singleton.1 hc]
      | leftParen | rightParen | separator =>
        rw [show c = _ from List.mem_singleton.1 hc]
        decide
    · exact ih h.2 c hc

end Tokens

end Skirmish.Formula
