import Mathlib.Data.List.Forall2
import Skirmish.Content.Directory
import Skirmish.Proofs.Formula.Keeping

/-!
# Loading content

What becomes of a battle that content is loaded into, whether that succeeds or fails. How the texts
of the files are read is a parameter (`Directory.format`): all that counts is which definitions they
hold.

1. `registerFormulas_ends`: a catalogue with formulas is registered as a whole, or not at all if one
   of its formulas cannot be read. The last definition with a key counts.
2. `registerCombatants_ends`: combatants enter one by one, up to the first whose key is taken.
3. `load_ends`: the catalogues are registered in turn, so at a fault those before are registered.
4. `populate_exact`: what a directory makes of a battle.
-/

namespace Skirmish.Content

open Skirmish.Formula Skirmish.Battle

/-! ## Catalogues with formulas -/

section Formulas

variable {α β : Type}

/-- Every formula of the definitions can be read. -/
def AllRead (v : Vocabulary) (formulas : α → List String) (ds : List α) : Prop :=
  ∀ d ∈ ds, ∀ text ∈ formulas d, v.CanRead text

/-- The first of the definitions with a formula that cannot be read is `d`, and `cause` is what is
wrong with the first such formula. -/
def FirstUnread (v : Vocabulary) (formulas : α → List String) (ds : List α) (d : α)
    (cause : ParseError) : Prop :=
  ∃ before after, ds = before ++ d :: after ∧ AllRead v formulas before ∧
    v.FirstFault (formulas d) cause

/-- The table `u` is `t` with definitions put in: under each key is the compiled last definition
with that key, and where there is none, what was there. -/
def Enters (key : α → String) (Compiled : α → β → Prop) (ds : List α) (t u : Table β) : Prop :=
  ∀ name, match ds.reverse.find? (key · = name) with
    | some d => ∃ x, Compiled d x ∧ u.get? name = some x
    | none => u.get? name = t.get? name

variable {v : Vocabulary} {key : α → String} {formulas : α → List String}
  {Compiled : α → β → Prop} {compile : α → Except ParseError β} {ds : List α}

theorem FirstUnread.not_allRead {d : α} {cause : ParseError}
    (h : FirstUnread v formulas ds d cause) : ¬AllRead v formulas ds := by
  obtain ⟨before, after, rfl, -, fault⟩ := h
  exact fun hall => fault.not_canRead (hall d (List.mem_append_right before List.mem_cons_self))

theorem enters_nil (t : Table β) : Enters key Compiled [] t t := fun _ => rfl

/-- A catalogue is compiled to the last, or up to the first fault. -/
theorem compileAll_ends (inOrder : ∀ d, v.ReadsInOrder (formulas d) (Compiled d) (compile d))
    (catalogue : Catalogue) (key : α → String) (ds : List α) :
    (∃ xs, compileAll catalogue key compile ds = .ok xs ∧ AllRead v formulas ds ∧
        List.Forall₂ Compiled ds xs) ∨
      ∃ d cause, FirstUnread v formulas ds d cause ∧
        compileAll catalogue key compile ds = .error (.invalidFormula catalogue (key d) cause) := by
  induction ds with
  | nil => exact .inl ⟨[], rfl, nofun, .nil⟩
  | cons d rest ih =>
    have hcons : compileAll catalogue key compile (d :: rest) =
        ((compile d).mapError (.invalidFormula catalogue (key d)) >>= fun x =>
          compileAll catalogue key compile rest >>= fun xs => pure (x :: xs)) := List.mapM_cons
    rw [hcons]
    cases hd : compile d with
    | error cause => exact .inr ⟨d, cause, ⟨[], rest, rfl, nofun, (inOrder d).of_error hd⟩, rfl⟩
    | ok x =>
      obtain ⟨readable, compiled⟩ := (inOrder d).of_ok hd
      obtain ⟨xs, hxs, hread, hall⟩ | ⟨d', cause, ⟨before, after, rfl, hbefore, hd'⟩, herr⟩ := ih
      · rw [hxs]
        exact .inl ⟨x :: xs, rfl, List.forall_mem_cons.2 ⟨readable, hread⟩, .cons compiled hall⟩
      · rw [herr]
        refine .inr ⟨d', cause, ⟨d :: before, after, rfl, ?_, hd'⟩, rfl⟩
        exact List.forall_mem_cons.2 ⟨readable, hbefore⟩

/-- What is compiled bears the key of its definition, so the last one under a key stays. -/
theorem enters_foldl {name : β → String} (hname : ∀ d x, Compiled d x → name x = key d)
    {xs : List β} (h : List.Forall₂ Compiled ds xs) (t : Table β) :
    Enters key Compiled ds t (xs.foldl (fun t x => t.insert (name x) x) t) := by
  induction h generalizing t with
  | nil => exact enters_nil t
  | @cons d x ds xs hd _ ih =>
    intro n
    rw [List.reverse_cons, List.find?_append, List.foldl_cons, hname d x hd]
    have hrest := ih (t.insert (key d) x) n
    cases hlast : ds.reverse.find? (key · = n) with
    | some d' =>
      rw [hlast] at hrest
      exact hrest
    | none =>
      rw [hlast] at hrest
      dsimp only at hrest
      rw [Table.get?_insert] at hrest
      by_cases hk : key d = n
      · subst hk
        rw [if_pos rfl] at hrest
        simpa using ⟨x, hd, hrest⟩
      · rw [if_neg hk] at hrest
        simpa [hk] using hrest

/-- A catalogue with formulas is registered in its table as a whole, or not at all. -/
theorem registerFormulas_ends {b : Battle} {compile : Vocabulary → α → Except ParseError β}
    {put : Battle → β → Battle} {name : β → String} (table : Battle → Table β)
    (withTable : Battle → Table β → Battle)
    (inOrder : ∀ d, b.vocabulary.ReadsInOrder (formulas d) (Compiled d) (compile b.vocabulary d))
    (hname : ∀ d x, Compiled d x → name x = key d)
    (hput : ∀ (xs : List β) b, xs.foldl put b =
      withTable b (xs.foldl (fun t x => t.insert (name x) x) (table b)))
    (catalogue : Catalogue) (ds : List α) :
    (∃ t, AllRead b.vocabulary formulas ds ∧ Enters key Compiled ds (table b) t ∧
        registerFormulas (fun v => compileAll catalogue key (compile v)) put ds b =
          .ok () (withTable b t)) ∨
      ∃ d cause, FirstUnread b.vocabulary formulas ds d cause ∧
        registerFormulas (fun v => compileAll catalogue key (compile v)) put ds b =
          .error (.invalidFormula catalogue (key d) cause) b := by
  have hregister : registerFormulas (fun v => compileAll catalogue key (compile v)) put ds b =
      (liftExcept (compileAll catalogue key (compile b.vocabulary) ds) >>= fun xs =>
        modify fun b => xs.foldl put b : Loading Unit) b := rfl
  rw [hregister]
  obtain ⟨xs, hxs, hread, hall⟩ | ⟨d, cause, hfault, herr⟩ :=
    compileAll_ends inOrder catalogue key ds
  · rw [hxs]
    have hok : (modify fun b => xs.foldl put b : Loading Unit) b = .ok () (withTable b _) :=
      congrArg (EStateM.Result.ok ()) (hput xs b)
    exact .inl ⟨_, hread, enters_foldl hname hall (table b), hok⟩
  · rw [herr]
    exact .inr ⟨d, cause, hfault, rfl⟩

end Formulas

/-! ### Registering -/

theorem foldl_addDamageType (ts : List DamageType) (b : Battle) :
    ts.foldl addDamageType b = { b with
      damageTypes := ts.foldl (fun t d => t.insert d.key d) b.damageTypes } := by
  induction ts generalizing b with
  | nil => rfl
  | cons t rest ih => exact ih (b.addDamageType t)

theorem foldl_addEffect (es : List StatusEffect) (b : Battle) :
    es.foldl addEffect b = { b with
      effects := es.foldl (fun t e => t.insert e.key e) b.effects } := by
  induction es generalizing b with
  | nil => rfl
  | cons e rest ih => exact ih (b.addEffect e)

theorem foldl_addSkill (ss : List Skill) (b : Battle) :
    ss.foldl addSkill b = { b with
      skills := ss.foldl (fun t s => t.insert s.key s) b.skills } := by
  induction ss generalizing b with
  | nil => rfl
  | cons s rest ih => exact ih (b.addSkill s)

/-! ## Combatants -/

/-- The combatant is new and as the definition says: its stats override the default ones, base and
derived stats are the same, and there are no statuses. -/
structure Entered (settings : Settings) (d : CombatantDefinition) (c : Combatant) : Prop where
  name : c.name = d.name
  side : c.side = d.side
  statuses : c.statuses = []
  base : ∀ stat, c.baseStat? stat = (d.stats.get? stat).or (settings.defaultStats.get? stat)
  derived : ∀ stat, c.stat? stat = (d.stats.get? stat).or (settings.defaultStats.get? stat)

/-- Everyone who is defined can enter: their keys are distinct, and free among those who are
there. -/
structure Admissible (t : Table Combatant) (ds : List CombatantDefinition) : Prop where
  nodup : (ds.map (·.key)).Nodup
  free : ∀ d ∈ ds, t.contains d.key = false

/-- All before `d` can enter, but then `d` cannot. -/
def FirstRefused (t : Table Combatant) (ds before : List CombatantDefinition)
    (d : CombatantDefinition) : Prop :=
  (∃ after, ds = before ++ d :: after) ∧ Admissible t before ∧
    (t.contains d.key = true ∨ d.key ∈ before.map (·.key))

/-- The table `u` is `t` and those who enter. -/
structure Joined (settings : Settings) (ds : List CombatantDefinition) (t u : Table Combatant) :
    Prop where
  entered : ∀ d ∈ ds, ∃ c, u.get? d.key = some c ∧ Entered settings d c
  others : ∀ key, (∀ d ∈ ds, d.key ≠ key) → u.get? key = t.get? key

section Entering

variable {b : Battle} {t u : Table Combatant} {d : CombatantDefinition}
  {ds : List CombatantDefinition}

theorem FirstRefused.not_admissible {before : List CombatantDefinition}
    (h : FirstRefused t ds before d) : ¬Admissible t ds := by
  obtain ⟨⟨after, rfl⟩, -, htaken⟩ := h
  rintro ⟨hnodup, hfree⟩
  rcases htaken with htaken | htaken
  · rw [hfree d (List.mem_append_right before List.mem_cons_self)] at htaken
    cases htaken
  · rw [List.map_append] at hnodup
    exact (List.nodup_append.1 hnodup).2.2 d.key htaken d.key List.mem_cons_self rfl

theorem setBaseStats_new (name : String) (side : Side) (defaults stats : Stats) :
    (Combatant.new name side defaults).setBaseStats stats =
      .new name side (defaults.override stats) := by
  unfold Combatant.setBaseStats Table.override
  generalize stats.entries = entries
  induction entries generalizing defaults with
  | nil => rfl
  | cons e rest ih => exact ih (defaults.insert e.1 e.2)

/-- Who enters by a definition. -/
def newcomer (settings : Settings) (d : CombatantDefinition) : Combatant :=
  .new d.name d.side (settings.defaultStats.override d.stats)

theorem entered_newcomer (settings : Settings) (d : CombatantDefinition) :
    Entered settings d (newcomer settings d) where
  name := rfl
  side := rfl
  statuses := rfl
  base := Table.get?_override settings.defaultStats d.stats
  derived := Table.get?_override settings.defaultStats d.stats

theorem registerCombatant_of_free (h : b.contains d.key = false) :
    registerCombatant d b =
      .ok () { b with combatants := b.combatants.insert d.key (newcomer b.settings d) } := by
  have hfree : ¬b.contains d.key = true := by rw [h]; exact nofun
  have hadd : Battle.add d.key d.name d.side b = .ok () { b with
      combatants := b.combatants.insert d.key (.new d.name d.side b.settings.defaultStats) } :=
    if_neg hfree
  unfold registerCombatant enter
  rw [bind_of_ok hadd]
  show EStateM.Result.ok ()
    { b with combatants := (b.combatants.insert d.key _).modify d.key _ } = _
  rw [Table.modify_insert, setBaseStats_new]
  rfl

theorem registerCombatant_of_taken (h : b.contains d.key = true) :
    registerCombatant d b = .error (.refused d.key (.duplicateEntity d.key)) b := by
  have hadd : Battle.add d.key d.name d.side b = .error (.duplicateEntity d.key) b := if_pos h
  unfold registerCombatant enter
  rw [bind_of_error hadd]

/-- Once someone entered, those can enter who could before and have another key. -/
theorem admissible_cons {x : Combatant} (hfree : t.contains d.key = false) :
    Admissible t (d :: ds) ↔ Admissible (t.insert d.key x) ds := by
  have hother (y : CombatantDefinition) :
      (t.insert d.key x).contains y.key = false ↔ d.key ≠ y.key ∧ t.contains y.key = false := by
    rw [Table.contains_insert, Bool.or_eq_false_iff, decide_eq_false_iff_not]
  constructor
  · rintro ⟨hnodup, hall⟩
    obtain ⟨hd, hrest⟩ := List.nodup_cons.1 hnodup
    refine ⟨hrest, fun y hy => (hother y).2 ⟨fun hk => ?_, hall y (List.mem_cons_of_mem d hy)⟩⟩
    exact hd (List.mem_map.2 ⟨y, hy, hk.symm⟩)
  · rintro ⟨hnodup, hall⟩
    refine ⟨List.nodup_cons.2 ⟨fun hmem => ?_, hnodup⟩, List.forall_mem_cons.2 ⟨hfree, ?_⟩⟩
    · obtain ⟨y, hy, hk⟩ := List.mem_map.1 hmem
      exact ((hother y).1 (hall y hy)).1 hk.symm
    · exact fun y hy => ((hother y).1 (hall y hy)).2

theorem joined_nil (settings : Settings) (t : Table Combatant) : Joined settings [] t t :=
  ⟨nofun, fun _ _ => rfl⟩

/-- Whoever enters first stays, as those who follow have other keys. -/
theorem Joined.cons {settings : Settings}
    (h : Joined settings ds (t.insert d.key (newcomer settings d)) u)
    (hd : ∀ y ∈ ds, y.key ≠ d.key) : Joined settings (d :: ds) t u where
  entered := by
    refine List.forall_mem_cons.2 ⟨?_, h.entered⟩
    refine ⟨newcomer settings d, ?_, entered_newcomer settings d⟩
    rw [h.others d.key hd, Table.get?_insert, if_pos rfl]
  others key hkey := by
    obtain ⟨hk, hrest⟩ := List.forall_mem_cons.1 hkey
    rw [h.others key hrest, Table.get?_insert, if_neg hk]

/-- Combatants enter to the last, or up to the first whose key is taken. -/
theorem registerCombatants_ends (ds : List CombatantDefinition) (b : Battle) :
    (∃ u, Admissible b.combatants ds ∧ Joined b.settings ds b.combatants u ∧
        registerCombatants ds b = .ok () { b with combatants := u }) ∨
      ∃ before d u, FirstRefused b.combatants ds before d ∧
        Joined b.settings before b.combatants u ∧
        registerCombatants ds b =
          .error (.refused d.key (.duplicateEntity d.key)) { b with combatants := u } := by
  induction ds generalizing b with
  | nil => exact .inl ⟨b.combatants, ⟨.nil, nofun⟩, joined_nil _ _, rfl⟩
  | cons d rest ih =>
    cases hd : b.combatants.contains d.key with
    | true =>
      have herr : registerCombatants (d :: rest) b = _ :=
        bind_of_error (registerCombatant_of_taken hd)
      exact .inr ⟨[], d, b.combatants, ⟨⟨rest, rfl⟩, ⟨.nil, nofun⟩, .inl hd⟩, joined_nil _ _, herr⟩
    | false =>
      have hrest : registerCombatants (d :: rest) b = registerCombatants rest _ :=
        bind_of_ok (registerCombatant_of_free hd)
      have hcons {ds : List CombatantDefinition} : Admissible b.combatants (d :: ds) ↔
          Admissible (b.combatants.insert d.key (newcomer b.settings d)) ds := admissible_cons hd
      have hkeys {ds : List CombatantDefinition} (h : Admissible b.combatants (d :: ds)) :
          ∀ y ∈ ds, y.key ≠ d.key := fun y hy hk =>
        (List.nodup_cons.1 h.nodup).1 (List.mem_map.2 ⟨y, hy, hk⟩)
      rw [hrest]
      rcases ih { b with combatants := b.combatants.insert d.key (newcomer b.settings d) } with
        ⟨u, hadmissible, hjoined, hok⟩ | ⟨before, d', u, hrefused, hjoined, herr⟩
      · have hall := hcons.2 hadmissible
        exact .inl ⟨u, hall, hjoined.cons (hkeys hall), hok⟩
      · obtain ⟨⟨after, rfl⟩, hbefore, htaken⟩ := hrefused
        have hall := hcons.2 hbefore
        refine .inr ⟨d :: before, d', u, ⟨⟨after, rfl⟩, hall, ?_⟩, hjoined.cons (hkeys hall), herr⟩
        rw [Table.contains_insert, Bool.or_eq_true, decide_eq_true_eq] at htaken
        rw [List.map_cons, List.mem_cons]
        tauto

end Entering

/-! ## Everything -/

/-- The battle `c` is `b` with definitions of damage types, statuses, skills and combatants
registered in it. -/
structure Registered (ts : List DamageTypeDefinition) (es : List StatusDefinition)
    (ss : List SkillDefinition) (ds : List CombatantDefinition) (b c : Battle) : Prop where
  damageTypes : Enters (·.key) (·.Compiled b.vocabulary) ts b.damageTypes c.damageTypes
  effects : Enters (·.key) (·.Compiled b.vocabulary) es b.effects c.effects
  skills : Enters (·.key) (·.Compiled b.vocabulary) ss b.skills c.skills
  combatants : Joined b.settings ds b.combatants c.combatants
  other : c = { b with
    damageTypes := c.damageTypes, effects := c.effects, skills := c.skills,
    combatants := c.combatants }

/-- All formulas can be read, and everyone can enter. -/
structure Loadable (ts : List DamageTypeDefinition) (es : List StatusDefinition)
    (ss : List SkillDefinition) (ds : List CombatantDefinition) (b : Battle) : Prop where
  damageTypes : AllRead b.vocabulary (·.formulas) ts
  effects : AllRead b.vocabulary (·.formulas) es
  skills : AllRead b.vocabulary (·.formulas) ss
  combatants : Admissible b.combatants ds

/-- The fault that the first definition raises that cannot be registered, and the battle it leaves
behind. -/
inductive Stops (ts : List DamageTypeDefinition) (es : List StatusDefinition)
    (ss : List SkillDefinition) (ds : List CombatantDefinition) (b : Battle) :
    ContentError → Battle → Prop
  | damageType {d : DamageTypeDefinition} {cause : ParseError}
      (fault : FirstUnread b.vocabulary (·.formulas) ts d cause) :
      Stops ts es ss ds b (.invalidFormula .damageTypes d.key cause) b
  | effect {d : StatusDefinition} {cause : ParseError} {c : Battle}
      (damageTypes : AllRead b.vocabulary (·.formulas) ts)
      (fault : FirstUnread b.vocabulary (·.formulas) es d cause)
      (registered : Registered ts [] [] [] b c) :
      Stops ts es ss ds b (.invalidFormula .statuses d.key cause) c
  | skill {d : SkillDefinition} {cause : ParseError} {c : Battle}
      (damageTypes : AllRead b.vocabulary (·.formulas) ts)
      (effects : AllRead b.vocabulary (·.formulas) es)
      (fault : FirstUnread b.vocabulary (·.formulas) ss d cause)
      (registered : Registered ts es [] [] b c) :
      Stops ts es ss ds b (.invalidFormula .skills d.key cause) c
  | combatant {d : CombatantDefinition} {before : List CombatantDefinition} {c : Battle}
      (damageTypes : AllRead b.vocabulary (·.formulas) ts)
      (effects : AllRead b.vocabulary (·.formulas) es)
      (skills : AllRead b.vocabulary (·.formulas) ss)
      (refused : FirstRefused b.combatants ds before d)
      (registered : Registered ts es ss before b c) :
      Stops ts es ss ds b (.refused d.key (.duplicateEntity d.key)) c

section Loading

variable (ts : List DamageTypeDefinition) (es : List StatusDefinition) (ss : List SkillDefinition)
  (ds : List CombatantDefinition) (b : Battle)

/-- Registers all four catalogues. -/
def load : Loading Unit := do
  registerDamageTypes ts
  registerStatuses es
  registerSkills ss
  registerCombatants ds

variable {ts es ss ds b}

theorem Stops.not_loadable {e : ContentError} {c : Battle} (h : Stops ts es ss ds b e c) :
    ¬Loadable ts es ss ds b := by
  rintro ⟨hts, hes, hss, hds⟩
  cases h with
  | damageType fault => exact fault.not_allRead hts
  | effect _ fault => exact fault.not_allRead hes
  | skill _ _ fault => exact fault.not_allRead hss
  | combatant _ _ _ refused => exact refused.not_admissible hds

theorem registerDamageTypes_ends (ts : List DamageTypeDefinition) (b : Battle) :
    (∃ t, AllRead b.vocabulary (·.formulas) ts ∧
        Enters (·.key) (·.Compiled b.vocabulary) ts b.damageTypes t ∧
        registerDamageTypes ts b = .ok () { b with damageTypes := t }) ∨
      ∃ d cause, FirstUnread b.vocabulary (·.formulas) ts d cause ∧
        registerDamageTypes ts b = .error (.invalidFormula .damageTypes d.key cause) b :=
  registerFormulas_ends (·.damageTypes) (fun b t => { b with damageTypes := t })
    (fun d => d.compile_inOrder b.vocabulary) (fun _ _ h => h.key) foldl_addDamageType
    .damageTypes ts

theorem registerStatuses_ends (es : List StatusDefinition) (b : Battle) :
    (∃ t, AllRead b.vocabulary (·.formulas) es ∧
        Enters (·.key) (·.Compiled b.vocabulary) es b.effects t ∧
        registerStatuses es b = .ok () { b with effects := t }) ∨
      ∃ d cause, FirstUnread b.vocabulary (·.formulas) es d cause ∧
        registerStatuses es b = .error (.invalidFormula .statuses d.key cause) b :=
  registerFormulas_ends (·.effects) (fun b t => { b with effects := t })
    (fun d => d.compile_inOrder b.vocabulary) (fun _ _ h => h.key) foldl_addEffect .statuses es

theorem registerSkills_ends (ss : List SkillDefinition) (b : Battle) :
    (∃ t, AllRead b.vocabulary (·.formulas) ss ∧
        Enters (·.key) (·.Compiled b.vocabulary) ss b.skills t ∧
        registerSkills ss b = .ok () { b with skills := t }) ∨
      ∃ d cause, FirstUnread b.vocabulary (·.formulas) ss d cause ∧
        registerSkills ss b = .error (.invalidFormula .skills d.key cause) b :=
  registerFormulas_ends (·.skills) (fun b t => { b with skills := t })
    (fun d => d.compile_inOrder b.vocabulary) (fun _ _ h => h.key) foldl_addSkill .skills ss

/-- **Loading.** The catalogues are registered to the last definition, or up to the first that
cannot be. -/
theorem load_ends (ts : List DamageTypeDefinition) (es : List StatusDefinition)
    (ss : List SkillDefinition) (ds : List CombatantDefinition) (b : Battle) :
    (∃ c, Loadable ts es ss ds b ∧ Registered ts es ss ds b c ∧ load ts es ss ds b = .ok () c) ∨
      ∃ e c, Stops ts es ss ds b e c ∧ load ts es ss ds b = .error e c := by
  unfold load
  rcases registerDamageTypes_ends ts b with ⟨t, hts, ht, hok⟩ | ⟨d, cause, hfault, herr⟩
  · rw [bind_of_ok hok]
    rcases registerStatuses_ends es { b with damageTypes := t } with
      ⟨u, hes, hu, hok⟩ | ⟨d, cause, hfault, herr⟩
    · rw [bind_of_ok hok]
      rcases registerSkills_ends ss { b with damageTypes := t, effects := u } with
        ⟨s, hss, hs, hok⟩ | ⟨d, cause, hfault, herr⟩
      · rw [bind_of_ok hok]
        rcases registerCombatants_ends ds
            { b with damageTypes := t, effects := u, skills := s } with
          ⟨w, hds, hw, hok⟩ | ⟨before, d, w, hrefused, hw, herr⟩
        · exact .inl ⟨_, ⟨hts, hes, hss, hds⟩, ⟨ht, hu, hs, hw, rfl⟩, hok⟩
        · exact .inr ⟨_, _, .combatant hts hes hss hrefused ⟨ht, hu, hs, hw, rfl⟩, herr⟩
      · have hregistered : Registered ts es [] [] b { b with damageTypes := t, effects := u } :=
          ⟨ht, hu, enters_nil _, joined_nil _ _, rfl⟩
        exact .inr ⟨_, _, .skill hts hes hfault hregistered, bind_of_error herr⟩
    · have hregistered : Registered ts [] [] [] b { b with damageTypes := t } :=
        ⟨ht, enters_nil _, enters_nil _, joined_nil _ _, rfl⟩
      exact .inr ⟨_, _, .effect hts hfault hregistered, bind_of_error herr⟩
  · exact .inr ⟨_, _, .damageType hfault, bind_of_error herr⟩

/-! ## Directories -/

/-- The files of the directory hold these definitions. -/
structure Defines (dir : Directory) (ts : List DamageTypeDefinition) (es : List StatusDefinition)
    (ss : List SkillDefinition) (ds : List CombatantDefinition) : Prop where
  damageTypes : dir.damageTypes = .ok ts
  statuses : dir.statuses = .ok es
  skills : dir.skills = .ok ss
  combatants : dir.combatants = .ok ds

theorem populate_eq_load {dir : Directory} (h : Defines dir ts es ss ds) :
    dir.populate b = load ts es ss ds b := by
  unfold Directory.populate load
  rw [h.damageTypes, h.statuses, h.skills, h.combatants]
  rfl

/-- **Content.** Of a directory whose texts, in whatever format they are, define these damage types,
statuses, skills and combatants:

1. A battle is populated exactly if every formula can be read with its vocabulary and the keys of
   the combatants are distinct and free.
2. Everything is registered then. Under each key is the last definition with that key, with its
   formulas as they are read, and everyone enters with the default stats overridden by their own.
3. Otherwise the fault names the first definition that cannot be registered, and what is wrong with
   its first formula that cannot be read. The catalogues before its own are registered; of its own,
   nothing if a formula cannot be read, and everyone before it if its key is taken. -/
theorem populate_exact {dir : Directory} (h : Defines dir ts es ss ds) (b : Battle) :
    ((∃ c, dir.populate b = .ok () c) ↔ Loadable ts es ss ds b) ∧
      (∀ c, dir.populate b = .ok () c → Registered ts es ss ds b c) ∧
      ∀ e c, dir.populate b = .error e c → Stops ts es ss ds b e c := by
  rw [populate_eq_load h]
  rcases load_ends ts es ss ds b with ⟨c, hloadable, hregistered, hok⟩ | ⟨e, c, hstops, herr⟩
  · rw [hok]
    refine ⟨⟨fun _ => hloadable, fun _ => ⟨c, rfl⟩⟩, fun _ h => ?_, fun _ _ h => ?_⟩
    · cases h
      exact hregistered
    · cases h
  · rw [herr]
    refine ⟨⟨fun ⟨_, h⟩ => ?_, fun hloadable => absurd hloadable hstops.not_loadable⟩,
      fun _ h => ?_, fun _ _ h => ?_⟩
    · cases h
    · cases h
    · cases h
      exact hstops

theorem eq_ok_of_toOption {ε α : Type} {x : Except ε α} {a : α} (h : x.toOption = some a) :
    x = .ok a := by
  cases x with
  | ok b =>
    cases h
    rfl
  | error e => cases h

/-- The fault of a run that failed. -/
def fault? {ε σ α : Type} : EStateM.Result ε σ α → Option ε
  | .ok .. => none
  | .error e _ => some e

theorem eq_error_of_fault? {ε σ α : Type} {r : EStateM.Result ε σ α} {e : ε}
    (h : fault? r = some e) : ∃ s, r = .error e s := by
  cases r with
  | ok a s => cases h
  | error e' s =>
    cases h
    exact ⟨s, rfl⟩

/-- A skill with the given formula, a damage type and a combatant. -/
def strikes (formula : String) : Directory where
  path := "d"
  read file := .ok <|
    if file = "d/damage_types.ron" then "[(key: \"PHYS\", mitigation: Some(\"$VALUE-DEF\"))]"
    else if file = "d/skills.ron" then "[(key: \"strike\", formula: \"" ++ formula ++ "\")]"
    else if file = "d/entities.ron" then "[(key: \"h\", name: \"H\", kind: player)]"
    else "[]"

theorem defines_strikes (formula : String) (h : formula ∈ ["STR-AGI", "STR*"]) :
    Defines (strikes formula) [⟨"PHYS", some "$VALUE-DEF", none, none, none⟩] []
      [⟨"strike", formula⟩] [⟨"h", "H", .player, .empty⟩] := by
  have read : ∀ formula ∈ ["STR-AGI", "STR*"],
      (strikes formula).damageTypes.toOption =
          some [⟨"PHYS", some "$VALUE-DEF", none, none, none⟩] ∧
        (strikes formula).statuses.toOption = some [] ∧
        (strikes formula).skills.toOption = some [⟨"strike", formula⟩] ∧
        (strikes formula).combatants.toOption = some [⟨"h", "H", .player, .empty⟩] := by
    decide +kernel
  obtain ⟨hts, hes, hss, hds⟩ := read formula h
  exact ⟨eq_ok_of_toOption hts, eq_ok_of_toOption hes, eq_ok_of_toOption hss,
    eq_ok_of_toOption hds⟩

/-- Before a skill that cannot be read, the damage types and the statuses are registered. -/
theorem Stops.of_skill {key : String} {cause : ParseError} {c : Battle}
    (h : Stops ts es ss ds b (.invalidFormula .skills key cause) c) :
    Registered ts es [] [] b c := by
  generalize hfault : ContentError.invalidFormula .skills key cause = fault at h
  cases h with
  | skill _ _ _ registered => exact registered
  | damageType | effect | combatant => cases hfault

/-- With `STR-AGI` the skill can be read and is registered. With `STR*` it cannot, and it is the
fault; the damage type is registered before it, and no one enters. -/
theorem populate_exact_strikes :
    let minus : Operator := ⟨"-", 1, true, 2, .difference⟩
    let b := Battle.new .standard
    (∃ c, (strikes "STR-AGI").populate b = .ok () c ∧ ∃ s, c.skills.get? "strike" = some s ∧
        s.formula = .apply minus [.leaf (.key "STR"), .leaf (.key "AGI")]) ∧
      ∃ c, (strikes "STR*").populate b =
          .error (.invalidFormula .skills "strike" .unexpectedEnd) c ∧
        (∃ t, c.damageTypes.get? "PHYS" = some t ∧
          t.mitigation = some (.apply minus [.leaf (.key "$VALUE"), .leaf (.key "DEF")])) ∧
        c.skills.get? "strike" = none ∧ c.contains "h" = false := by
  intro minus b
  have strike : Expr.parse .standard "STR-AGI" =
      .ok (.apply minus [.leaf (.key "STR"), .leaf (.key "AGI")]) := by rfl
  have armor : Expr.parse .standard "$VALUE-DEF" =
      .ok (.apply minus [.leaf (.key "$VALUE"), .leaf (.key "DEF")]) := by rfl
  constructor
  · obtain ⟨populates, registered, -⟩ := populate_exact (defines_strikes "STR-AGI" (by decide)) b
    obtain ⟨c, hc⟩ := populates.2
      { damageTypes := by simpa [AllRead, DamageTypeDefinition.formulas] using ⟨_, armor⟩
        effects := nofun
        skills := by simpa [AllRead, SkillDefinition.formulas] using ⟨_, strike⟩
        combatants := ⟨by decide, by decide⟩ }
    obtain ⟨s, compiled, hs⟩ := (registered c hc).skills "strike"
    exact ⟨c, hc, s, hs, Except.ok.inj (compiled.formula.symm.trans strike)⟩
  · obtain ⟨-, -, stops⟩ := populate_exact (defines_strikes "STR*" (by decide)) b
    have hfault : fault? ((strikes "STR*").populate b) =
        some (.invalidFormula .skills "strike" .unexpectedEnd) := by decide +kernel
    obtain ⟨c, hc⟩ := eq_error_of_fault? hfault
    have registered := (stops _ c hc).of_skill
    obtain ⟨t, compiled, ht⟩ := registered.damageTypes "PHYS"
    refine ⟨c, hc, ⟨t, ht, ?_⟩, registered.skills "strike", ?_⟩
    · have hmitigation : some (Expr.parse .standard "$VALUE-DEF") = t.mitigation.map .ok :=
        compiled.mitigation
      rw [armor] at hmitigation
      obtain ⟨e, he, same⟩ := Option.map_eq_some_iff.1 hmitigation.symm
      rw [he, Except.ok.inj same]
    · have absent : c.combatants.get? "h" = none := registered.combatants.others "h" nofun
      show (c.combatants.get? "h").isSome = false
      rw [absent]
      rfl

end Loading

end Skirmish.Content
