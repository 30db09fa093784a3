import Skirmish.Proofs.Formula.Spacing

/-!
# Splitting

What a text is split into. Nothing but blanks is lost: the texts of the tokens, one behind the
other, are the text again, except that a sign in front of anything but a number stands there as the
factor it is read as. Besides the empty text only a minus right behind the name of a function is a
fault.

1. `scan_finish`: a special character ends the run before it.
2. `scan_factor`, `scan_written`: a run may be replaced by the texts of its tokens.
3. `charsOf_scan`, `scan_spell`, `scan_error_iff`: the texts of the tokens, what they are split
   into, and the faults, one character after the other.
4. `tokenize_standard`: the three for a whole text.
-/

namespace Skirmish.Formula

open Vocabulary

/-! ## What is expected -/

/-- Whether a minus behind this character, or at the very start, is a sign. -/
def opensBehind (before? : Option Char) : Bool :=
  before?.all fun d => standard.isSpecial d && d ≠ ')'

/-- Some characters, with `1*` behind every minus that is a sign and not that of a number.
`before?` is the character in front of them. -/
def spell (before? : Option Char) : List Char → List Char
  | [] => []
  | c :: rest =>
    if c = '-' && opensBehind before? && !rest.head?.any Token.startsNumber then
      '-' :: '1' :: '*' :: spell (some '-') rest
    else c :: spell (some c) rest

/-- A minus right behind a run of ordinary characters, all of them, that names a function. -/
structure Clash (cs before run rest : List Char) : Prop where
  split : cs = before ++ run ++ '-' :: rest
  ordinary : ∀ c ∈ run, standard.isSpecial c = false
  whole : before.getLast?.all standard.isSpecial = true
  named : (standard.function? (String.ofList run)).isSome = true

/-- `run` is the first name that a minus clashes with. -/
def FirstClash (cs run : List Char) : Prop :=
  ∃ before rest, Clash cs before run rest ∧
    ∀ before' run' rest', Clash cs before' run' rest' → before.length ≤ before'.length

/-! ## Special characters -/

/-- The characters that are tokens of their own. -/
def specials : List Char := [',', '(', ')', '+', '-', '*', '/', '^', '!', '>', '<', '=']

theorem mem_specials {c : Char} (h : standard.isSpecial c = true) : c ∈ specials := by
  simp only [isSpecial, Bool.or_eq_true, decide_eq_true_eq] at h
  rcases h with ((rfl | rfl) | rfl) | h
  · decide
  · decide
  · decide
  · obtain ⟨op, hop⟩ := Option.isSome_iff_exists.1 h
    have hsymbol : op.symbol = String.singleton c := by
      simpa [operator?] using List.find?_some hop
    have hall : ∀ op ∈ standard.operators, op.symbol.toList.all (specials.contains ·) = true := by
      decide
    have hop := hall op (List.mem_of_find?_eq_some hop)
    rw [hsymbol] at hop
    simpa using hop

theorem startsNumber_eq_false {c : Char} (h : standard.isSpecial c = true) :
    Token.startsNumber c = false := by
  have hall : specials.all (!Token.startsNumber ·) = true := by decide
  simpa using List.all_eq_true.1 hall c (mem_specials h)

/-- An operand may begin behind any of them but the closing bracket. -/
theorem opens_classify {c : Char} (h : standard.isSpecial c = true) :
    (Token.classify standard (String.singleton c)).opens = decide (c ≠ ')') := by
  have hall : specials.all (fun c =>
      (Token.classify standard (String.singleton c)).opens == decide (c ≠ ')')) = true := by decide
  exact beq_iff_eq.1 (List.all_eq_true.1 hall c (mem_specials h))

/-! ## Runs -/

/-- A run that a scan may carry behind the token `last?`: ordinary characters, with a sign in front
of them only where an operand may begin. -/
structure Pending (last? : Option Token) (sign name : List Char) : Prop where
  ordinary : ∀ c ∈ name, standard.isSpecial c = false
  signed : sign = [] ∨ sign = ['-'] ∧ last?.all Token.opens = true

/-- The end of a text, or a special character. -/
def Ended (rest : List Char) : Prop := rest.head?.all standard.isSpecial = true

theorem ended_nil : Ended [] := rfl

theorem ended_cons {c : Char} (h : standard.isSpecial c = true) (rest : List Char) :
    Ended (c :: rest) := h

@[simp] theorem charsOf_cons (t : Token) (tokens : List Token) :
    charsOf (t :: tokens) = t.text.toList ++ charsOf tokens := rfl

section Runs

variable {last? : Option Token} {before? : Option Char} {sign name rest : List Char} {c : Char}

/-- A run that is no sign is a token with the same text. -/
theorem ofRun_ordinary (ordinary : ∀ c ∈ name, standard.isSpecial c = false) (hname : name ≠ []) :
    Token.ofRun standard name = [Token.classify standard (String.ofList name)] := by
  cases name with
  | nil => exact absurd rfl hname
  | cons c name =>
    refine ofRun_of_ne fun h => ?_
    have hc := ordinary c List.mem_cons_self
    rw [h] at hc
    exact absurd hc (by decide)

/-- A sign in front of anything but a number is two tokens of its own. -/
theorem ofRun_factor (ordinary : ∀ c ∈ name, standard.isSpecial c = false)
    (hname : ¬name.head?.any Token.startsNumber = true) :
    Token.ofRun standard ('-' :: name) =
      Token.classify standard "-1" :: Token.classify standard "*" :: Token.ofRun standard name := by
  show (if name.head?.any Token.startsNumber = true then _ else
    if name.isEmpty then _ else _) = _
  rw [if_neg hname]
  cases name with
  | nil => rfl
  | cons c name =>
    rw [ofRun_ordinary ordinary (List.cons_ne_nil c name)]
    rfl

/-- A name of a function is a run without a sign. -/
theorem Pending.ofRun_function {f : Function} (h : Pending last? sign name)
    (hf : standard.function? (String.ofList (sign ++ name)) = some f) :
    Token.ofRun standard (sign ++ name) = [.function f] ∧
      f.name = String.ofList (sign ++ name) ∧ sign = [] := by
  have hmem := List.mem_of_find?_eq_some hf
  have hnamed : f.name = String.ofList (sign ++ name) := by
    simpa [function?] using List.find?_some hf
  have hall : ∀ f ∈ standard.functions, Token.ofRun standard f.name.toList = [.function f] := by
    decide
  have htoken := hall f hmem
  rw [hnamed, String.toList_ofList] at htoken
  refine ⟨htoken, hnamed, ?_⟩
  rcases h.signed with hsign | ⟨rfl, -⟩
  · exact hsign
  · have hminus : '-' ∈ f.name.toList := by
      rw [hnamed, String.toList_ofList]
      exact List.mem_cons_self
    exact absurd (name_ordinary hmem '-' hminus).1 (by decide)

theorem append_map_append (l m : List Token) (x : Except ParseError (List Token)) :
    (fun tokens => l ++ (m ++ tokens)) <$> x = (l ++ ·) <$> ((m ++ ·) <$> x) := by
  cases x <;> rfl

theorem append_map_eq_error {x : Except ParseError (List Token)} {err : ParseError}
    (l : List Token) : (l ++ ·) <$> x = .error err ↔ x = .error err := by
  cases x with
  | error => rfl
  | ok => exact iff_of_false nofun nofun

theorem append_map_eq_ok {x : Except ParseError (List Token)} {tokens : List Token}
    (l : List Token) : (l ++ ·) <$> x = .ok tokens ↔ ∃ more, x = .ok more ∧ l ++ more = tokens := by
  cases x with
  | error => exact iff_of_false nofun fun ⟨_, h, _⟩ => nomatch h
  | ok more =>
    show Except.ok _ = _ ↔ _
    simp

/-- **Finishing a run.** A special character ends the run before it. -/
theorem scan_finish (h : Pending last? sign name) (special : standard.isSpecial c = true)
    (rest : List Char) :
    Token.scan standard last? (sign ++ name) (c :: rest) =
      (Token.ofRun standard (sign ++ name) ++ ·) <$>
        Token.scan standard ((Token.ofRun standard (sign ++ name)).getLast?.or last?) []
          (c :: rest) := by
  have hc : ¬(!standard.isSpecial c) = true := by rw [special]; nofun
  have hempty : standard.function? (String.ofList []) = none := standard_unnamed
  rw [Token.scan, if_neg hc, Token.scan, if_neg hc]
  by_cases hminus : c = '-'
  · simp only [if_pos hminus, hempty, Option.isSome_none, Bool.false_eq_true, if_false]
    cases hf : standard.function? (String.ofList (sign ++ name)) with
    | some f =>
      obtain ⟨htoken, hnamed, -⟩ := h.ofRun_function hf
      rw [htoken, ← hnamed]
      rfl
    | none =>
      simp only [Option.isSome_none, Bool.false_eq_true, if_false]
      generalize (Token.ofRun standard (sign ++ name)).getLast?.or last? = last
      rcases last with _ | ⟨_⟩ | ⟨_⟩ | ⟨f⟩ | _ | _ | _
      · exact append_map_append _ [] _
      · exact append_map_append _ [Token.classify standard "-"] _
      · exact append_map_append _ [] _
      · rfl
      · exact append_map_append _ [] _
      · exact append_map_append _ [Token.classify standard "-"] _
      · exact append_map_append _ [] _
  · simp only [if_neg hminus]
    exact append_map_append _ [Token.classify standard (String.singleton c)] _

/-- Behind the name of a function a minus is a fault. -/
theorem scan_clash (f : Function) :
    Token.scan standard (some (.function f)) [] ('-' :: rest) =
      .error (.minusAfterFunction f.name) := rfl

/-- A sign in front of anything but a number may be written out. -/
theorem scan_factor (ordinary : ∀ c ∈ name, standard.isSpecial c = false)
    (hname : ¬name.head?.any Token.startsNumber = true) (opens : last?.all Token.opens = true)
    (ended : Ended rest) :
    Token.scan standard last? ('-' :: name) rest =
      ([Token.classify standard "-1", Token.classify standard "*"] ++ ·) <$>
        Token.scan standard (some (Token.classify standard "*")) name rest := by
  have hrun := ofRun_factor ordinary hname
  cases rest with
  | nil =>
    rw [Token.scan, Token.scan, hrun]
    rfl
  | cons c rest =>
    have signed : Pending last? ['-'] name := ⟨ordinary, .inr ⟨rfl, opens⟩⟩
    have unsigned : Pending (some (Token.classify standard "*")) [] name := ⟨ordinary, .inl rfl⟩
    have hsigned := scan_finish signed ended rest
    have hunsigned := scan_finish unsigned ended rest
    rw [List.singleton_append, hrun] at hsigned
    rw [List.nil_append] at hunsigned
    rw [hsigned, hunsigned, ← append_map_append, List.getLast?_cons_cons, List.getLast?_cons,
      Option.some_or]
    cases (Token.ofRun standard name).getLast? <;> rfl

theorem charsOf_ofRun (ordinary : ∀ c ∈ name, standard.isSpecial c = false) :
    charsOf (Token.ofRun standard name) = name := by
  by_cases hname : name = []
  · rw [hname]
    rfl
  · rw [ofRun_ordinary ordinary hname, charsOf_cons, Token.text_classify, String.toList_ofList]
    exact List.append_nil name

theorem charsOf_ofRun_number (hname : name.head?.any Token.startsNumber = true) :
    charsOf (Token.ofRun standard ('-' :: name)) = '-' :: name := by
  rw [ofRun_of_number hname, charsOf_cons, Token.text_classify, String.toList_ofList]
  exact List.append_nil _

theorem charsOf_ofRun_factor (ordinary : ∀ c ∈ name, standard.isSpecial c = false)
    (hname : ¬name.head?.any Token.startsNumber = true) :
    charsOf (Token.ofRun standard ('-' :: name)) = '-' :: '1' :: '*' :: name := by
  rw [ofRun_factor ordinary hname, charsOf_cons, charsOf_cons, charsOf_ofRun ordinary,
    Token.text_classify, Token.text_classify]
  rfl

/-- A finished run may be replaced by the texts of its tokens. -/
theorem scan_written (h : Pending last? sign name) (ended : Ended rest) :
    Token.scan standard last? [] (charsOf (Token.ofRun standard (sign ++ name)) ++ rest) =
      Token.scan standard last? (sign ++ name) rest := by
  have ordinary := h.ordinary
  have hminus : standard.isSpecial '-' = true := by decide
  rcases h.signed with rfl | ⟨rfl, opens⟩
  · rw [List.nil_append, charsOf_ofRun ordinary, scan_ordinary ordinary]
    rfl
  · by_cases hname : name.head?.any Token.startsNumber = true
    · rw [List.singleton_append, charsOf_ofRun_number hname, List.cons_append,
        scan_sign hminus standard_unnamed opens, scan_ordinary ordinary]
      rfl
    · have hone : ∀ c ∈ ['1'], standard.isSpecial c = false :=
        List.forall_mem_singleton.2 (by decide)
      have htimes : standard.isSpecial '*' = true := by decide
      have hnumber : Pending last? ['-'] ['1'] := ⟨hone, .inr ⟨rfl, opens⟩⟩
      rw [List.singleton_append, charsOf_ofRun_factor ordinary hname,
        scan_factor ordinary hname opens ended]
      calc Token.scan standard last? [] ('-' :: (['1'] ++ '*' :: (name ++ rest)))
          = Token.scan standard last? (['-'] ++ ['1']) ('*' :: (name ++ rest)) := by
            rw [scan_sign hminus standard_unnamed opens, scan_ordinary hone]
        _ = ([Token.classify standard "-1"] ++ ·) <$>
            (([Token.classify standard "*"] ++ ·) <$>
              Token.scan standard (some (Token.classify standard "*")) name rest) := by
            rw [scan_finish hnumber htimes, scan_special htimes (by decide), scan_ordinary ordinary]
            rfl
        _ = _ := (append_map_append _ _ _).symm

end Runs

section Boundaries

variable {last? : Option Token} {before? : Option Char} {sign name rest : List Char} {c : Char}

/-- No operand begins behind a run. -/
theorem opens_classify_run {text : String}
    (h : ∀ c, standard.isSpecial c = true → text.toList ≠ [c]) :
    (Token.classify standard text).opens = false := by
  unfold Token.classify
  split
  · rfl
  · split
    · next op hop =>
      obtain rfl : op.symbol = text := by
        simpa [operator?] using List.find?_some hop
      obtain ⟨c, hc, hspecial, -⟩ := exists_symbol (List.mem_of_find?_eq_some hop)
      exact absurd hc (h c hspecial)
    · split
      · next he => exact absurd (by rw [he]; rfl) (h '(' (by decide))
      · split
        · rfl
        · split
          · next he => exact absurd (by rw [he]; rfl) (h ',' (by decide))
          · rfl

theorem spell_ordinary (ordinary : ∀ c ∈ name, standard.isSpecial c = false) :
    spell before? (name ++ rest) = name ++ spell (name.getLast?.or before?) rest := by
  induction name generalizing before? with
  | nil => rfl
  | cons c name ih =>
    have hc : c ≠ '-' := by
      rintro rfl
      exact absurd (ordinary '-' List.mem_cons_self) (by decide)
    rw [List.cons_append, spell, if_neg (by simp [hc]), ih fun d hd =>
      ordinary d (List.mem_cons_of_mem c hd), List.getLast?_cons, Option.some_or]
    cases name.getLast? <;> rfl

/-- A finished run is spelled as its tokens are. -/
theorem spell_run (h : Pending last? sign name)
    (agree : opensBehind before? = last?.all Token.opens) (ended : Ended rest) :
    spell before? (sign ++ name ++ rest) = charsOf (Token.ofRun standard (sign ++ name)) ++
      spell ((sign ++ name).getLast?.or before?) rest := by
  have ordinary := h.ordinary
  rcases h.signed with rfl | ⟨rfl, opens⟩
  · rw [List.nil_append, spell_ordinary ordinary, charsOf_ofRun ordinary]
  · have hlast : (['-'] ++ name).getLast?.or before? = name.getLast?.or (some '-') := by
      rw [List.singleton_append, List.getLast?_cons, Option.some_or]
      cases name.getLast? <;> rfl
    have hhead : (name ++ rest).head?.any Token.startsNumber =
        name.head?.any Token.startsNumber := by
      cases name with
      | cons c name => rfl
      | nil =>
        cases rest with
        | nil => rfl
        | cons c rest => exact startsNumber_eq_false ended
    rw [hlast, List.append_assoc, List.singleton_append, List.singleton_append, spell, agree, opens,
      hhead, spell_ordinary ordinary]
    by_cases hname : name.head?.any Token.startsNumber = true
    · rw [if_neg (by simp [hname]), charsOf_ofRun_number hname]
      rfl
    · rw [if_pos (by simp [hname]), charsOf_ofRun_factor ordinary hname]
      rfl

/-- The last token of a run tells as much as its last character. -/
theorem finish_agree (h : Pending last? sign name)
    (agree : opensBehind before? = last?.all Token.opens) :
    opensBehind ((sign ++ name).getLast?.or before?) =
      ((Token.ofRun standard (sign ++ name)).getLast?.or last?).all Token.opens := by
  have ordinary := h.ordinary
  by_cases hname : name = []
  · subst hname
    rcases h.signed with rfl | ⟨rfl, opens⟩
    · exact agree
    · rfl
  · -- The run ends in an ordinary character, and its last token is no special character.
    have hbehind : opensBehind ((sign ++ name).getLast?.or before?) = false := by
      rw [List.getLast?_append, List.getLast?_eq_some_getLast hname, Option.some_or, Option.some_or]
      simp [opensBehind, ordinary _ (List.getLast_mem hname)]
    have hplain : (Token.classify standard (String.ofList name)).opens = false := by
      refine opens_classify_run fun c special hc => ?_
      rw [String.toList_ofList] at hc
      rw [ordinary c (by simp [hc])] at special
      cases special
    have hlast : ((Token.ofRun standard name).getLast?.or last?).all Token.opens = false := by
      rw [ofRun_ordinary ordinary hname]
      exact hplain
    rw [hbehind]
    rcases h.signed with rfl | ⟨rfl, opens⟩
    · exact hlast.symm
    · rw [List.singleton_append]
      by_cases hnumber : name.head?.any Token.startsNumber = true
      · rw [ofRun_of_number hnumber]
        refine (opens_classify_run fun c _ hc => hname ?_).symm
        rw [String.toList_ofList] at hc
        exact (List.cons.inj hc).2
      · rw [ofRun_factor ordinary hnumber, ofRun_ordinary ordinary hname]
        exact hplain.symm

/-- The ways a scan goes on at a special character: it is a token, or a sign, or a fault. -/
theorem scan_cases (special : standard.isSpecial c = true) (last? : Option Token) :
    ((c = '-' → last?.all Token.opens = false ∧ ∀ f, last? ≠ some (.function f)) ∧
      ∀ rest, Token.scan standard last? [] (c :: rest) =
        (Token.classify standard (String.singleton c) :: ·) <$>
          Token.scan standard (some (Token.classify standard (String.singleton c))) [] rest) ∨
    (c = '-' ∧ last?.all Token.opens = true) ∨
    c = '-' ∧ ∃ f, last? = some (.function f) := by
  by_cases hc : c = '-'
  · subst hc
    match last? with
    | some (.function f) => exact .inr (.inr ⟨rfl, f, rfl⟩)
    | some (.word _) | some .rightParen =>
      exact .inl ⟨fun _ => ⟨rfl, nofun⟩, fun rest => scan_minus special standard_unnamed rfl rest⟩
    | none | some (.operator _) | some .leftParen | some .separator => exact .inr (.inl ⟨rfl, rfl⟩)
  · exact .inl ⟨fun h => absurd h hc, fun rest => scan_special special hc rest⟩

theorem Pending.add {d : Char} (h : Pending last? sign name) (hd : standard.isSpecial d = false) :
    Pending last? sign (name ++ [d]) :=
  ⟨List.forall_mem_append.2 ⟨h.ordinary, List.forall_mem_singleton.2 hd⟩, h.signed⟩

/-- An ordinary character is added to the run. -/
theorem scan_add (hc : standard.isSpecial c = false) :
    Token.scan standard last? (sign ++ name) (c :: rest) =
      Token.scan standard last? (sign ++ (name ++ [c])) rest := by
  rw [Token.scan, if_pos (by rw [hc]; rfl), List.append_assoc]

theorem append_add : sign ++ name ++ c :: rest = sign ++ (name ++ [c]) ++ rest := by simp

theorem pending_nil : Pending last? [] [] := ⟨nofun, .inl rfl⟩

theorem pending_sign (opens : last?.all Token.opens = true) : Pending last? ['-'] [] :=
  ⟨nofun, .inr ⟨rfl, opens⟩⟩

theorem agree_special (special : standard.isSpecial c = true) :
    opensBehind (some c) =
      (some (Token.classify standard (String.singleton c))).all Token.opens := by
  rw [Option.all_some, opens_classify special]
  simp [opensBehind, special]

theorem spell_special (h : c = '-' → opensBehind before? = false) :
    spell before? (c :: rest) = c :: spell (some c) rest := by
  rw [spell, if_neg]
  intro hsign
  simp only [Bool.and_eq_true, decide_eq_true_eq] at hsign
  rw [h hsign.1.1] at hsign
  exact absurd hsign.1.2 (by decide)

/-- The spelling of some characters begins as they do. -/
theorem exists_spell (before? : Option Char) (c : Char) (rest : List Char) :
    ∃ tail, spell before? (c :: rest) = c :: tail := by
  rw [spell]
  split
  · next h =>
    simp only [Bool.and_eq_true, decide_eq_true_eq] at h
    exact ⟨_, by rw [h.1.1]⟩
  · exact ⟨_, rfl⟩

/-- The texts of the tokens are the characters spelled out. -/
theorem charsOf_scan {tokens : List Token} (h : Pending last? sign name)
    (agree : opensBehind before? = last?.all Token.opens)
    (scanned : Token.scan standard last? (sign ++ name) rest = .ok tokens) :
    charsOf tokens = spell before? (sign ++ name ++ rest) := by
  induction rest generalizing last? before? sign name tokens with
  | nil =>
    rw [spell_run h agree ended_nil, spell, List.append_nil]
    rw [Token.scan] at scanned
    rw [Except.ok.inj scanned]
  | cons c rest ih =>
    by_cases special : standard.isSpecial c = true
    · rw [spell_run h agree (ended_cons special rest)]
      rw [scan_finish h special] at scanned
      have hagree := finish_agree h agree
      generalize (Token.ofRun standard (sign ++ name)).getLast?.or last? = last at scanned hagree
      generalize (sign ++ name).getLast?.or before? = before at hagree
      obtain ⟨more, hscan, rfl⟩ := (append_map_eq_ok _).1 scanned
      have hmore : charsOf more = spell before (c :: rest) := by
        rcases scan_cases special last with ⟨hminus, step⟩ | ⟨rfl, opens⟩ | ⟨rfl, f, rfl⟩
        · rw [step] at hscan
          obtain ⟨further, hrest, rfl⟩ := (append_map_eq_ok [_]).1 hscan
          have hbehind : c = '-' → opensBehind before = false := fun hc => by
            rw [hagree, (hminus hc).1]
          rw [spell_special hbehind, List.singleton_append, charsOf_cons, Token.text_classify,
            String.toList_singleton, ih pending_nil (agree_special special) hrest]
          rfl
        · rw [scan_sign special standard_unnamed opens] at hscan
          exact ih (pending_sign opens) hagree hscan
        · cases hscan
      show List.flatMap _ _ = _
      rw [List.flatMap_append]
      exact congrArg _ hmore
    · have hc := eq_false_of_ne_true special
      rw [scan_add hc] at scanned
      rw [append_add]
      exact ih (h.add hc) agree scanned

/-- What is spelled out is split into the same tokens. -/
theorem scan_spell (h : Pending last? sign name)
    (agree : opensBehind before? = last?.all Token.opens) :
    Token.scan standard last? [] (spell before? (sign ++ name ++ rest)) =
      Token.scan standard last? (sign ++ name) rest := by
  induction rest generalizing last? before? sign name with
  | nil => rw [spell_run h agree ended_nil, spell, scan_written h ended_nil]
  | cons c rest ih =>
    by_cases special : standard.isSpecial c = true
    · have hagree := finish_agree h agree
      rw [spell_run h agree (ended_cons special rest)]
      obtain ⟨tail, htail⟩ := exists_spell ((sign ++ name).getLast?.or before?) c rest
      rw [htail, scan_written h (ended_cons special tail), scan_finish h special,
        scan_finish h special, ← htail]
      generalize (Token.ofRun standard (sign ++ name)).getLast?.or last? = last at hagree
      generalize (sign ++ name).getLast?.or before? = before at hagree
      congr 1
      rcases scan_cases special last with ⟨hminus, step⟩ | ⟨rfl, opens⟩ | ⟨rfl, f, rfl⟩
      · rw [spell_special fun hc => by rw [hagree]; exact (hminus hc).1, step, step]
        exact congrArg _ (ih pending_nil (agree_special special))
      · rw [scan_sign special standard_unnamed opens]
        exact ih (pending_sign opens) hagree
      · obtain ⟨tail, htail⟩ := exists_spell before '-' rest
        rw [htail]
        rfl
    · have hc := eq_false_of_ne_true special
      rw [scan_add hc, append_add]
      exact ih (h.add hc) agree

end Boundaries

/-! ## Faults -/

section Faults

variable {last? : Option Token} {sign name rest cs run before : List Char} {c : Char}

theorem classify_function {text : String} {f : Function} :
    Token.classify standard text = .function f ↔ standard.function? text = some f := by
  unfold Token.classify
  cases standard.function? text with
  | some g => simp
  | none =>
    refine iff_of_false ?_ nofun
    dsimp only
    split
    · nofun
    · repeat' split
      all_goals nofun

/-- No name of a function begins like a number. -/
theorem function?_eq_none {c : Char} {name : List Char}
    (h : standard.isSpecial c = true ∨ Token.startsNumber c = true) :
    standard.function? (String.ofList (c :: name)) = none := by
  cases hf : standard.function? (String.ofList (c :: name)) with
  | none => rfl
  | some f =>
    have hall : ∀ f ∈ standard.functions, f.name.toList.head?.all
        (fun c => !standard.isSpecial c && !Token.startsNumber c) = true := by decide
    have hname : f.name = String.ofList (c :: name) := by
      simpa [function?] using List.find?_some hf
    have hhead := hall f (List.mem_of_find?_eq_some hf)
    rw [hname, String.toList_ofList] at hhead
    rcases h with h | h <;> simp [h] at hhead

/-- The function that a run ends with is the one that its ordinary characters name. -/
theorem finish_function (h : Pending last? sign name) (hlast : ∀ f, last? ≠ some (.function f))
    (f : Function) :
    (Token.ofRun standard (sign ++ name)).getLast?.or last? = some (.function f) ↔
      standard.function? (String.ofList name) = some f := by
  have ordinary := h.ordinary
  by_cases hname : name = []
  · subst hname
    have hempty : standard.function? (String.ofList []) = none := standard_unnamed
    rw [hempty]
    refine iff_of_false ?_ nofun
    rcases h.signed with rfl | ⟨rfl, -⟩
    · exact hlast f
    · exact nofun
  · have hplain : (Token.ofRun standard name).getLast?.or last? = some (.function f) ↔
        standard.function? (String.ofList name) = some f := by
      rw [ofRun_ordinary ordinary hname, ← classify_function]
      exact Option.some_inj
    rcases h.signed with rfl | ⟨rfl, -⟩
    · exact hplain
    · rw [List.singleton_append]
      by_cases hnumber : name.head?.any Token.startsNumber = true
      · obtain ⟨d, rest, rfl⟩ := List.exists_cons_of_ne_nil hname
        rw [ofRun_of_number hnumber, function?_eq_none (.inr hnumber)]
        refine iff_of_false (fun he => ?_) nofun
        have hf := classify_function.1 (Option.some.inj he)
        rw [function?_eq_none (.inl (by decide))] at hf
        cases hf
      · rw [ofRun_factor ordinary hnumber, ofRun_ordinary ordinary hname, ← classify_function]
        exact Option.some_inj

/-- The run in front of the first special character is determined by the text. -/
theorem run_unique {a b x y : List Char} {c d : Char}
    (ha : ∀ e ∈ a, standard.isSpecial e = false) (hb : ∀ e ∈ b, standard.isSpecial e = false)
    (hc : standard.isSpecial c = true) (hd : standard.isSpecial d = true)
    (h : a ++ c :: x = b ++ d :: y) : a = b ∧ c = d := by
  induction a generalizing b with
  | nil =>
    cases b with
    | nil => exact ⟨rfl, (List.cons.inj h).1⟩
    | cons e b =>
      obtain rfl : c = e := (List.cons.inj h).1
      rw [hb c List.mem_cons_self] at hc
      cases hc
  | cons e a ih =>
    cases b with
    | nil =>
      obtain rfl : e = d := (List.cons.inj h).1
      rw [ha e List.mem_cons_self] at hd
      cases hd
    | cons g b =>
      obtain ⟨rfl, htail⟩ := List.cons.inj h
      obtain ⟨rfl, rfl⟩ := ih (fun i hi => ha i (List.mem_cons_of_mem e hi))
        (fun i hi => hb i (List.mem_cons_of_mem e hi)) htail
      exact ⟨rfl, rfl⟩

/-- The clashes behind a special character that is none itself. -/
theorem clash_cons (ordinary : ∀ c ∈ name, standard.isSpecial c = false)
    (special : standard.isSpecial c = true)
    (free : c = '-' → standard.function? (String.ofList name) = none) :
    Clash (name ++ c :: cs) before run rest ↔
      ∃ before', before = name ++ c :: before' ∧ Clash cs before' run rest := by
  constructor
  · intro h
    have hsplit := h.split
    rcases List.eq_nil_or_concat before with rfl | ⟨init, d, rfl⟩
    · obtain ⟨rfl, rfl⟩ := run_unique ordinary h.ordinary special (by decide) hsplit
      have hnamed := h.named
      rw [free rfl] at hnamed
      cases hnamed
    · rw [List.concat_eq_append] at h hsplit ⊢
      have hd : standard.isSpecial d = true := by simpa using h.whole
      -- What is in front of the name ends behind the run, so with `c` or later.
      obtain ⟨before', hbefore⟩ : ∃ before', init ++ [d] = name ++ c :: before' := by
        rw [List.append_assoc, List.append_assoc, List.append_eq_append_iff] at hsplit
        rcases hsplit with ⟨between, rfl, htail⟩ | ⟨between, rfl, htail⟩
        · cases between with
          | nil => exact ⟨[], by simp [(List.cons.inj htail).1]⟩
          | cons e between => exact ⟨between ++ [d], by simp [(List.cons.inj htail).1]⟩
        · cases between with
          | nil => exact ⟨[], by simp [(List.cons.inj htail).1]⟩
          | cons e between =>
            obtain rfl : d = e := (List.cons.inj htail).1
            rw [ordinary d (by simp)] at hd
            cases hd
      refine ⟨before', hbefore, ?_, h.ordinary, ?_, h.named⟩
      · rw [hbefore, List.append_assoc, List.append_assoc] at hsplit
        exact (List.cons.inj (List.append_cancel_left hsplit)).2.trans (List.append_assoc ..).symm
      · have hwhole := h.whole
        rw [hbefore, List.getLast?_append, List.getLast?_cons] at hwhole
        cases hl : before'.getLast? with
        | none => rfl
        | some e => rw [hl] at hwhole; exact hwhole
  · rintro ⟨before', rfl, h⟩
    refine ⟨by rw [h.split]; simp, h.ordinary, ?_, h.named⟩
    rw [List.getLast?_append, List.getLast?_cons]
    have hwhole := h.whole
    cases hl : before'.getLast? with
    | none => exact special
    | some e => rw [hl] at hwhole; exact hwhole

theorem firstClash_cons (ordinary : ∀ c ∈ name, standard.isSpecial c = false)
    (special : standard.isSpecial c = true)
    (free : c = '-' → standard.function? (String.ofList name) = none) :
    FirstClash (name ++ c :: cs) run ↔ FirstClash cs run := by
  constructor
  · rintro ⟨before, rest, h, first⟩
    obtain ⟨before', rfl, h'⟩ := (clash_cons ordinary special free).1 h
    refine ⟨before', rest, h', fun b r t hb => ?_⟩
    have hle := first _ r t ((clash_cons ordinary special free).2 ⟨b, rfl, hb⟩)
    simp only [List.length_append, List.length_cons] at hle
    omega
  · rintro ⟨before, rest, h, first⟩
    refine ⟨_, rest, (clash_cons ordinary special free).2 ⟨before, rfl, h⟩, fun b r t hb => ?_⟩
    obtain ⟨b', rfl, hb'⟩ := (clash_cons ordinary special free).1 hb
    have hle := first b' r t hb'
    simp only [List.length_append, List.length_cons]
    omega

/-- A name at the very start is the first one that clashes. -/
theorem firstClash_here (ordinary : ∀ c ∈ name, standard.isSpecial c = false)
    (named : (standard.function? (String.ofList name)).isSome = true) :
    FirstClash (name ++ '-' :: cs) run ↔ run = name := by
  have here : Clash (name ++ '-' :: cs) [] name cs := ⟨rfl, ordinary, rfl, named⟩
  constructor
  · rintro ⟨before, rest, h, first⟩
    obtain rfl : before = [] := List.eq_nil_of_length_eq_zero (Nat.le_zero.1 (first _ _ _ here))
    exact (run_unique ordinary h.ordinary (by decide) (by decide) h.split).1.symm
  · rintro rfl
    exact ⟨[], cs, here, fun _ _ _ _ => Nat.zero_le _⟩

theorem not_firstClash (ordinary : ∀ c ∈ name, standard.isSpecial c = false) :
    ¬FirstClash name run := by
  rintro ⟨before, rest, h, -⟩
  have hminus := ordinary '-' (by rw [h.split]; simp)
  exact absurd hminus (by decide)

/-- A text is refused exactly for the first name that a minus clashes with. -/
theorem scan_error_iff (h : Pending last? sign name) (hlast : ∀ f, last? ≠ some (.function f))
    (err : ParseError) :
    Token.scan standard last? (sign ++ name) rest = .error err ↔
      ∃ run, FirstClash (name ++ rest) run ∧ err = .minusAfterFunction (String.ofList run) := by
  induction rest generalizing last? sign name with
  | nil =>
    rw [Token.scan, List.append_nil]
    constructor
    · intro hok
      cases hok
    · rintro ⟨run, hrun, -⟩
      exact absurd hrun (not_firstClash h.ordinary)
  | cons c rest ih =>
    by_cases special : standard.isSpecial c = true
    · have ordinary := h.ordinary
      have hfunction := finish_function h hlast
      rw [scan_finish h special, append_map_eq_error]
      generalize (Token.ofRun standard (sign ++ name)).getLast?.or last? = last at hfunction
      have free (hnone : ∀ f, last ≠ some (.function f)) :
          standard.function? (String.ofList name) = none :=
        Option.eq_none_iff_forall_ne_some.2 fun f hf => hnone f ((hfunction f).2 hf)
      rcases scan_cases special last with ⟨hminus, step⟩ | ⟨rfl, opens⟩ | ⟨rfl, f, rfl⟩
      · have htoken (f : Function) :
            some (Token.classify standard (String.singleton c)) ≠ some (.function f) := by
          intro he
          have hname := classify_function.1 (Option.some.inj he)
          rw [String.singleton_eq_ofList, function?_eq_none (.inl special)] at hname
          cases hname
        have hfree : c = '-' → _ := fun hc => free (hminus hc).2
        simp only [step, firstClash_cons ordinary special hfree]
        exact (append_map_eq_error [_]).trans (ih pending_nil htoken)
      · have hnone (f : Function) : last ≠ some (.function f) := by
          rintro rfl
          cases opens
        simp only [scan_sign special standard_unnamed opens,
          firstClash_cons ordinary special fun _ => free hnone]
        exact ih (pending_sign opens) hnone
      · have hf := (hfunction f).1 rfl
        have hname : f.name = String.ofList name := by
          simpa [function?] using List.find?_some hf
        simp only [scan_clash, firstClash_here ordinary (by rw [hf]; rfl), exists_eq_left]
        rw [hname, Except.error.injEq, eq_comm]
    · have hc := eq_false_of_ne_true special
      rw [scan_add hc, ih (h.add hc) hlast]
      simp

end Faults

theorem exists_firstClash {before run rest cs : List Char} (h : Clash cs before run rest) :
    ∃ run, FirstClash cs run := by
  induction hn : before.length using Nat.strongRecOn generalizing before run rest with
  | ind n ih =>
    by_cases hless : ∃ b r t, Clash cs b r t ∧ b.length < n
    · obtain ⟨b, r, t, hb, hlt⟩ := hless
      exact ih b.length hlt hb rfl
    · exact ⟨run, before, rest, h, fun b r t hb =>
        Nat.le_of_not_lt fun hlt => hless ⟨b, r, t, hb, hn ▸ hlt⟩⟩

/-! ## Whole texts -/

theorem join_text (tokens : List Token) :
    String.join (tokens.map Token.text) = String.ofList (charsOf tokens) := by
  rw [← String.toList_inj, String.toList_join, String.toList_ofList, List.flatMap_map]
  rfl

theorem isBlank_spell {before? : Option Char} {cs : List Char}
    (h : ∀ c ∈ cs, Token.isBlank c = false) :
    ∀ c ∈ spell before? cs, Token.isBlank c = false := by
  induction cs generalizing before? with
  | nil => exact nofun
  | cons c cs ih =>
    obtain ⟨hc, hcs⟩ := List.forall_mem_cons.1 h
    rw [spell]
    split
    · iterate 3 refine List.forall_mem_cons.2 ⟨by decide, ?_⟩
      exact ih hcs
    · exact List.forall_mem_cons.2 ⟨hc, ih hcs⟩

/-- **Splitting a text.** A text is refused when there is nothing in it but blanks, or a minus
stands right behind the name of a function; the first such name is reported. Any other text is given
back by the texts of its tokens, but for its blanks and with the factors of its signs written out,
and what is given back is split into the same tokens. -/
theorem tokenize_standard (text : String) :
    let cleaned := text.toList.filter (!Token.isBlank ·)
    ((∃ err, tokenize standard text = .error err) ↔
      cleaned = [] ∨ ∃ before run rest, Clash cleaned before run rest) ∧
    (∀ err, tokenize standard text = .error err ↔ cleaned = [] ∧ err = .empty ∨
      ∃ run, FirstClash cleaned run ∧ err = .minusAfterFunction (String.ofList run)) ∧
    ∀ tokens, tokenize standard text = .ok tokens →
      String.join (tokens.map Token.text) = String.ofList (spell none cleaned) ∧
      tokenize standard (String.join (tokens.map Token.text)) = .ok tokens := by
  intro cleaned
  have hblank : ∀ c ∈ cleaned, Token.isBlank c = false := by
    intro c hc
    simpa using (List.mem_filter.1 hc).2
  have errors (err : ParseError) : tokenize standard text = .error err ↔
      cleaned = [] ∧ err = .empty ∨
        ∃ run, FirstClash cleaned run ∧ err = .minusAfterFunction (String.ofList run) := by
    show (if cleaned.isEmpty then _ else Token.scan standard none [] cleaned) = _ ↔ _
    cases hcleaned : cleaned with
    | nil =>
      have hno (run : List Char) : ¬FirstClash [] run := not_firstClash nofun
      simp [hno, eq_comm]
    | cons c cs =>
      have start (f : Function) : none ≠ some (Token.function f) := nofun
      simpa using scan_error_iff pending_nil start err
  refine ⟨?_, errors, fun tokens htokens => ?_⟩
  · constructor
    · rintro ⟨err, herr⟩
      rcases (errors err).1 herr with ⟨hempty, -⟩ | ⟨run, ⟨before, rest, hrun, -⟩, -⟩
      · exact .inl hempty
      · exact .inr ⟨before, run, rest, hrun⟩
    · rintro (hempty | ⟨before, run, rest, hrun⟩)
      · exact ⟨_, (errors _).2 (.inl ⟨hempty, rfl⟩)⟩
      · obtain ⟨first, hfirst⟩ := exists_firstClash hrun
        exact ⟨_, (errors _).2 (.inr ⟨first, hfirst, rfl⟩)⟩
  · have hscan : (if cleaned.isEmpty then .error .empty else Token.scan standard none [] cleaned) =
        Except.ok tokens := htokens
    cases hcleaned : cleaned with
    | nil => rw [hcleaned] at hscan; cases hscan
    | cons c cs =>
      rw [hcleaned] at hscan hblank
      replace hscan : Token.scan standard none [] (c :: cs) = .ok tokens := hscan
      have hchars : charsOf tokens = spell none (c :: cs) := charsOf_scan pending_nil rfl hscan
      have hagain : Token.scan standard none [] (spell none (c :: cs)) = .ok tokens :=
        (scan_spell pending_nil rfl).trans hscan
      obtain ⟨tail, htail⟩ := exists_spell none c cs
      rw [join_text, hchars]
      refine ⟨rfl, ?_⟩
      have hkept : (spell none (c :: cs)).filter (!Token.isBlank ·) = spell none (c :: cs) :=
        List.filter_eq_self.2 fun d hd => by simp [isBlank_spell hblank d hd]
      unfold tokenize
      rw [String.toList_ofList, hkept]
      dsimp only
      rw [htail, List.isEmpty_cons, ← htail]
      exact hagain

theorem tokenize_standard_sign :
    ∃ tokens, tokenize standard "-STR" = .ok tokens ∧
      String.join (tokens.map Token.text) = "-1*STR" := by
  have split : tokenize standard "-STR" = .ok
      [.word "-1", .operator ⟨"*", 2, true, 2, .product⟩, .word "STR"] := rfl
  exact ⟨_, split, ((tokenize_standard "-STR").2.2 _ split).1⟩

example : String.ofList (spell none "2*-STR--5".toList) = "2*-1*STR--5" := by decide

end Skirmish.Formula
