import Skirmish.Proofs.Battle.Isolation

/-!
# Derived stats in an update

Between the tick of a combatant and the end of the update, formulas of everyone read and change the
battle, and some of them fail. Of all that nothing gets into the stats other than hit points but
what the components that change stats add to them.

1. `shifts_trial`: what the run of a single component adds to the stats of a combatant.
2. `shifts_work`, `renewed_tick`: a tick starts again from the base stats and adds up what its
   components do, in their order.
3. `trials_of`: the components that are run on a combatant, and in which order.
4. `update_derived`: the stats at the end of an update.
-/

namespace Skirmish.Battle

open Skirmish.Formula

/-! ## What is expected -/

/-- The amount that the component adds to a derived stat: nothing unless it is one that changes
stats and is evaluated to a change of that stat. -/
def Trial.amount? (resolver : Resolver) (stat : String) (t : Trial) : Option Float :=
  if isModifier t.job.component then
    match evalComponent resolver t.key t.job.status t.job.component t.battle with
    | .ok (.modifier changed amount) _ => if changed = stat then some amount else none
    | _ => none
  else none

/-- What trials add to a derived stat of a combatant. -/
def amountsOf (resolver : Resolver) (key stat : String) (ts : List Trial) : List Float :=
  ts.filterMap fun t => if t.key = key then t.amount? resolver stat else none

/-- What an update adds to a derived stat of a combatant, in the order in which it is added. -/
def amounts (b : Battle) (key stat : String) : List Float := amountsOf b.below key stat b.trials

/-- A derived stat, from the base stat and what is added to it one after another. Without either
there is none, and without a base stat the sum starts at zero. -/
def derivedFrom (base? : Option Float) (amounts : List Float) : Option Float :=
  if base?.isNone ∧ amounts = [] then none else some (amounts.foldl (· + ·) (base?.getD 0))

/-- The battle in which an update ticks a combatant: those in front of it have been ticked. -/
def reaching (b : Battle) (key : String) : Battle :=
  (forEach (b.combatants.names.takeWhile (· ≠ key)) (tick b.below) b).2

/-- The components that change stats, of the statuses that have not expired and are due: in the
order of the statuses, and of the components of each. -/
def modifiersOf (now : Timestamp) (l : List ActiveStatus) : List (ActiveStatus × Expr) :=
  (l.filter fun s => !s.isExpired now && s.isDue now).flatMap fun s =>
    (s.effect.components.filter isModifier).map fun e => (s, e)

/-! ## Adding to stats -/

/-- Adds amounts to a stat that may be missing. -/
def addAll (value? : Option Float) (amounts : List Float) : Option Float :=
  amounts.foldl (fun value? amount => some (value?.getD 0 + amount)) value?

/-- The combatant `y` is `x` with amounts added to derived stats, whatever became of hit points. -/
def Combatant.Shifts (hp : String) (amounts : String → List Float) (x y : Combatant) : Prop :=
  ∀ stat, stat ≠ hp → y.baseStat? stat = x.baseStat? stat ∧
    y.stat? stat = addAll (x.stat? stat) (amounts stat)

/-- The combatant `y` is `x` with derived stats that are the base stats and amounts. -/
def Combatant.Renewed (hp : String) (amounts : String → List Float) (x y : Combatant) : Prop :=
  ∀ stat, stat ≠ hp → y.baseStat? stat = x.baseStat? stat ∧
    y.stat? stat = addAll (x.baseStat? stat) (amounts stat)

theorem addAll_eq (base? : Option Float) (amounts : List Float) :
    addAll base? amounts = derivedFrom base? amounts := by
  have hsum (value : Float) (amounts : List Float) :
      addAll (some value) amounts = some (amounts.foldl (· + ·) value) := by
    induction amounts generalizing value with
    | nil => rfl
    | cons amount rest ih => exact ih (value + amount)
  unfold derivedFrom
  cases base? with
  | some value => exact hsum value amounts
  | none =>
    cases amounts with
    | nil => rfl
    | cons amount rest => exact hsum (0 + amount) rest

section Shifts

variable {hp : String} {A B : String → List Float} {x y z : Combatant}

theorem addAll_append (value? : Option Float) (l m : List Float) :
    addAll value? (l ++ m) = addAll (addAll value? l) m := List.foldl_append

theorem Combatant.Shifts.trans (h : Shifts hp A x y) (k : Shifts hp B y z) :
    Shifts hp (fun stat => A stat ++ B stat) x z := by
  intro stat hs
  obtain ⟨hbase, hstat⟩ := h stat hs
  obtain ⟨kbase, kstat⟩ := k stat hs
  exact ⟨kbase.trans hbase, by rw [kstat, hstat, addAll_append]⟩

theorem Combatant.Renewed.before (h : Shifts hp (fun _ => []) x y) (k : Renewed hp A y z) :
    Renewed hp A x z := by
  intro stat hs
  obtain ⟨kbase, kstat⟩ := k stat hs
  have hbase := (h stat hs).1
  exact ⟨kbase.trans hbase, by rw [kstat, hbase]⟩

theorem Combatant.Renewed.behind (h : Renewed hp A x y) (k : Shifts hp (fun _ => []) y z) :
    Renewed hp A x z := by
  intro stat hs
  obtain ⟨hbase, hstat⟩ := h stat hs
  obtain ⟨kbase, kstat⟩ := k stat hs
  exact ⟨kbase.trans hbase, kstat.trans hstat⟩

theorem Combatant.Frame.shifts {first next : Nat} (h : Frame hp first next x y) :
    Shifts hp (fun _ => []) x y :=
  fun stat hs => ⟨h.base stat hs, h.derived stat hs⟩

theorem Combatant.shifts_adjustDerived (x : Combatant) (stat : String) (amount : Float) :
    Shifts hp (fun other => if stat = other then [amount] else []) x
      (x.adjustDerived stat amount) := by
  intro other _
  refine ⟨rfl, ?_⟩
  rw [stat?_adjustDerived]
  dsimp only
  split
  · next h => rw [h]; rfl
  · rfl

end Shifts

/-! ## Trials -/

section Trials

variable {n : Nat} {r : Resolver} {b c : Battle} {key own : String}

theorem Evolves.shifts (h : Evolves false b c) (key : String) :
    Option.Rel (Combatant.Shifts b.settings.hpStat fun _ => [])
      (b.combatant? key) (c.combatant? key) :=
  rel_mono Combatant.Frame.shifts (h.frame.combatants key)

theorem amountsOf_append (ts us : List Trial) (stat : String) :
    amountsOf r key stat (ts ++ us) = amountsOf r key stat ts ++ amountsOf r key stat us :=
  List.filterMap_append

theorem amountsOf_singleton (t : Trial) (stat : String) :
    amountsOf r key stat [t] = (if t.key = key then t.amount? r stat else none).toList := by
  unfold amountsOf
  rw [List.filterMap_cons]
  cases (if t.key = key then t.amount? r stat else none) <;> rfl

theorem amountsOf_singleton_none {t : Trial} (h : ∀ stat, t.amount? r stat = none) :
    (fun stat => amountsOf r key stat [t]) = fun _ => [] := by
  funext stat
  rw [amountsOf_singleton, h]
  split <;> rfl

theorem amountsOf_of_ne {ts : List Trial} (h : ∀ t ∈ ts, t.key ≠ key) (stat : String) :
    amountsOf r key stat ts = [] :=
  List.filterMap_eq_nil_iff.2 fun t ht => if_neg (h t ht)

variable (hr : ∀ m, m + 1 = n → ∀ e, Keeps (At false m) (r e))

include hr

/-- What the run of a component adds to the stats of a combatant. -/
theorem shifts_trial (t : Trial) (key : String) (hn : t.battle.levels = n) :
    Option.Rel (Combatant.Shifts t.battle.settings.hpStat fun stat => amountsOf r key stat [t])
      (t.battle.combatant? key) ((after (t.job.perform r t.key) t.battle).combatant? key) := by
  have hkeeps : Keeps (At false n) (evalComponent r t.key t.job.status t.job.component) :=
    keeps_evalComponent hr
  unfold Job.perform
  by_cases hm : isModifier t.job.component = true
  · rw [if_pos hm]
    unfold applyModifier
    cases hv : evalComponent r t.key t.job.status t.job.component t.battle with
    | error e c =>
      have hnone (stat : String) : t.amount? r stat = none := by
        rw [Trial.amount?, if_pos hm, hv]
      rw [amountsOf_singleton_none hnone, after_bind_of_error hv]
      exact (hkeeps.of_error hv hn).shifts key
    | ok v c =>
      have hc : Evolves false t.battle c := hkeeps.of_ok hv hn
      rw [after_bind_of_ok hv]
      cases v with
      | modifier stat amount =>
        have hamount (other : String) :
            t.amount? r other = if stat = other then some amount else none := by
          rw [Trial.amount?, if_pos hm, hv]
        show Option.Rel _ _ ((c.alter t.key (·.adjustDerived stat amount)).combatant? key)
        rw [combatant?_alter]
        by_cases hkey : t.key = key
        · have hadded : (fun other => amountsOf r key other [t]) =
              fun other => if stat = other then [amount] else [] := by
            funext other
            rw [amountsOf_singleton, if_pos hkey, hamount]
            split <;> rfl
          rw [hadded, if_pos hkey.symm]
          exact rel_trans (fun h k => h.trans k) (hc.shifts key)
            (rel_of_eq_map rfl fun x => x.shifts_adjustDerived stat amount)
        · have hadded : (fun other => amountsOf r key other [t]) = fun _ => [] := by
            funext other
            rw [amountsOf_singleton, if_neg hkey]
            rfl
          rw [hadded, if_neg (Ne.symm hkey)]
          exact hc.shifts key
      | _ =>
        rw [amountsOf_singleton_none fun stat => by rw [Trial.amount?, if_pos hm, hv]]
        exact hc.shifts key
  · rw [if_neg hm, amountsOf_singleton_none fun stat => by rw [Trial.amount?, if_neg hm]]
    exact Evolves.shifts (keeps_discard hkeeps t.battle hn) key

/-- What the run of one component after another adds. -/
theorem shifts_work (own : String) (js : List Job) (key : String) (b : Battle)
    (hn : b.levels = n) :
    Option.Rel (Combatant.Shifts b.settings.hpStat fun stat =>
        amountsOf r key stat (trialsOf r own js b))
      (b.combatant? key) ((work r own js b).2.combatant? key) := by
  induction js generalizing b with
  | nil => exact rel_of_eq rfl fun x _ _ => ⟨rfl, rfl⟩
  | cons j js ih =>
    have hwork : (work r own (j :: js) b).2 = (work r own js (after (j.perform r own) b)).2 := by
      rw [← snd_attempt]
      rfl
    have hproceeds : Proceeds false b (after (j.perform r own) b) :=
      (works_perform_job hr own j b hn).proceeds
    have hrest := ih (after (j.perform r own) b) (hproceeds.levels_eq.trans hn)
    have hsettings : (after (j.perform r own) b).settings = b.settings :=
      congrArg Rules.settings hproceeds.rules_eq
    rw [hsettings] at hrest
    have hadded (stat : String) : amountsOf r key stat (trialsOf r own (j :: js) b) =
        amountsOf r key stat [⟨own, j, b⟩] ++
          amountsOf r key stat (trialsOf r own js (after (j.perform r own) b)) :=
      amountsOf_append [_] _ stat
    simp only [hwork, hadded]
    exact rel_trans (fun h k => h.trans k) (shifts_trial hr ⟨own, j, b⟩ key hn) hrest

/-- The tick of someone else adds nothing. -/
theorem shifts_tick (hkey : own ≠ key) (b : Battle) (hn : b.levels = n) :
    Option.Rel (Combatant.Shifts b.settings.hpStat fun _ => [])
      (b.combatant? key) ((tick r own b).2.combatant? key) := by
  cases hx : b.combatant? own with
  | none =>
    rw [tick_of_absent r own hx]
    exact rel_of_eq rfl fun x _ _ => ⟨rfl, rfl⟩
  | some x =>
    have hwork := shifts_work hr own (jobs b.now x.statuses) key (b.alter own (sweep b.now)) hn
    have hnothing (js : List Job) (c : Battle) (stat : String) :
        amountsOf r key stat (trialsOf r own js c) = [] :=
      amountsOf_of_ne (fun t ht => (of_mem_trialsOf ht).1 ▸ hkey) stat
    rw [tick_eq r own hx]
    simp only [hnothing, combatant?_alter, if_neg (Ne.symm hkey)] at hwork ⊢
    exact hwork

/-- **Ticks.** A tick starts again from the base stats and adds what its components do. -/
theorem renewed_tick (key : String) (b : Battle) (hn : b.levels = n) :
    Option.Rel (Combatant.Renewed b.settings.hpStat fun stat =>
        amountsOf r key stat (tickTrials r key b))
      (b.combatant? key) ((tick r key b).2.combatant? key) := by
  cases hx : b.combatant? key with
  | none =>
    rw [tick_of_absent r key hx, hx]
    exact .none
  | some x =>
    have hwork := shifts_work hr key (jobs b.now x.statuses) key (b.alter key (sweep b.now)) hn
    have htrials : tickTrials r key b =
        trialsOf r key (jobs b.now x.statuses) (b.alter key (sweep b.now)) := by
      rw [tickTrials, hx]
    rw [combatant?_alter, if_pos rfl, hx] at hwork
    obtain ⟨y, hy, hshifts⟩ := exists_of_rel hwork rfl
    rw [tick_eq r key hx, htrials, combatant?_alter, if_pos rfl, hy]
    exact .some hshifts

/-- The ticks of others add nothing. -/
theorem shifts_ticks {keys : List String} (hkeys : key ∉ keys) (b : Battle) (hn : b.levels = n) :
    Option.Rel (Combatant.Shifts b.settings.hpStat fun _ => [])
      (b.combatant? key) ((forEach keys (tick r) b).2.combatant? key) := by
  induction keys generalizing b with
  | nil => exact rel_of_eq rfl fun x _ _ => ⟨rfl, rfl⟩
  | cons own keys ih =>
    obtain ⟨hown, hkeys⟩ := not_or.1 (List.mem_cons.not.1 hkeys)
    have hproceeds : Proceeds false b (tick r own b).2 := passes_tick hr own b hn
    have hrest := ih hkeys (tick r own b).2 (hproceeds.levels_eq.trans hn)
    have hsettings : (tick r own b).2.settings = b.settings :=
      congrArg Rules.settings hproceeds.rules_eq
    rw [hsettings] at hrest
    rw [forEach_cons]
    exact rel_trans (fun h k => h.trans k) (shifts_tick hr (Ne.symm hown) b hn) hrest

theorem proceeds_ticks (keys : List String) (b : Battle) (hn : b.levels = n) :
    Proceeds false b (forEach keys (tick r) b).2 :=
  passes_forEach .refl .trans Proceeds.levels_eq (passes_tick hr) b hn

end Trials

/-- Whoever is not there does not enter. -/
theorem Proceeds.combatant?_eq_none {b c : Battle} {key : String} (h : Proceeds false b c)
    (habsent : b.combatant? key = none) : c.combatant? key = none := by
  have hcontains : (c.combatant? key).isSome = (b.combatant? key).isSome := h.contains_eq key
  rw [habsent] at hcontains
  exact Option.isNone_iff_eq_none.1 (by rw [← Option.not_isSome, hcontains]; rfl)

/-! ## Which components are run -/

section Listing

variable {r : Resolver} {key : String} {b : Battle}

theorem ticksTrials_append (keys keys' : List String) (b : Battle) :
    ticksTrials r (keys ++ keys') b =
      ticksTrials r keys b ++ ticksTrials r keys' (forEach keys (tick r) b).2 := by
  induction keys generalizing b with
  | nil => rfl
  | cons key keys ih =>
    rw [List.cons_append, ticksTrials, ticksTrials, ih, forEach_cons, List.append_assoc]

/-- What is in front of a key and what is behind it. -/
theorem exists_behind {keys : List String} (hkeys : keys.Nodup) (h : key ∈ keys) :
    key ∉ keys.takeWhile (· ≠ key) ∧ ∃ behind, key ∉ behind ∧
      keys = keys.takeWhile (· ≠ key) ++ key :: behind := by
  induction keys with
  | nil => cases h
  | cons own keys ih =>
    obtain ⟨hown, hkeys⟩ := List.nodup_cons.1 hkeys
    by_cases hkey : own = key
    · rw [List.takeWhile_cons_of_neg (by simp [hkey])]
      exact ⟨List.not_mem_nil, keys, hkey ▸ hown, by rw [hkey]; rfl⟩
    · have hmem : key ∈ keys := (List.mem_cons.1 h).resolve_left (Ne.symm hkey)
      obtain ⟨hfront, behind, hbehind, hsplit⟩ := ih hkeys hmem
      rw [List.takeWhile_cons_of_pos (by simp [hkey])]
      refine ⟨?_, behind, hbehind, by rw [List.cons_append, ← hsplit]⟩
      rintro (_ | ⟨_, hmem⟩)
      · exact hkey rfl
      · exact hfront ‹_›

/-- Of the trials of an update, those of one combatant are the trials of its tick. -/
theorem trials_of (b : Battle) (key : String) :
    b.trials.filter (fun t => t.key = key) = tickTrials b.below key (b.reaching key) := by
  have hothers {keys : List String} (hkeys : key ∉ keys) (c : Battle) :
      (ticksTrials b.below keys c).filter (fun t => t.key = key) = [] := by
    refine List.filter_eq_nil_iff.2 fun t ht hkey => ?_
    exact hkeys (of_decide_eq_true hkey ▸ key_of_mem_ticksTrials ht)
  by_cases hkey : key ∈ b.combatants.names
  · obtain ⟨hfront, behind, hbehind, hsplit⟩ := exists_behind (names_nodup b.combatants) hkey
    have hown : (tickTrials b.below key (b.reaching key)).filter (fun t => t.key = key) =
        tickTrials b.below key (b.reaching key) :=
      List.filter_eq_self.2 fun t ht => decide_eq_true (key_of_mem_tickTrials ht)
    unfold trials
    rw [hsplit, ticksTrials_append, ticksTrials, List.filter_append, List.filter_append,
      hothers hfront, hothers hbehind, List.append_nil, List.nil_append]
    exact hown
  · have habsent : b.combatant? key = none :=
      Option.eq_none_iff_forall_ne_some.2 fun x hx => hkey (mem_names hx)
    have hreaching : (b.reaching key).combatant? key = none :=
      (proceeds_ticks (keeps_below b false) _ b rfl).combatant?_eq_none habsent
    unfold tickTrials
    rw [hreaching]
    exact hothers hkey b

theorem map_job_trialsOf (js : List Job) (b : Battle) :
    (trialsOf r key js b).map (·.job) = js := by
  induction js generalizing b with
  | nil => rfl
  | cons j js ih => rw [trialsOf_cons, List.map_cons, ih]

theorem modifiers_jobsFrom (now : Timestamp) (place : Nat) (l : List ActiveStatus) :
    ((jobsFrom isModifier now place l).map fun j => (j.status, j.component)) =
      modifiersOf now l := by
  induction l generalizing place with
  | nil => rfl
  | cons s rest ih =>
    have hjobs : ((jobsOf isModifier place s).map fun j => (j.status, j.component)) =
        (s.effect.components.filter isModifier).map fun e => (s, e) := by
      rw [jobsOf, filter_eq_map_zipIdx, List.map_map, List.map_map]
      rfl
    rw [jobsFrom_cons, List.map_append, ih]
    unfold modifiersOf ActiveStatus.isRun
    rw [List.filter_cons]
    split
    · rw [hjobs, List.flatMap_cons]
    · rfl

/-- The components that change stats are run in the order of the list and of the effects. -/
theorem modifiers_tickTrials (b : Battle) :
    ((tickTrials r key b).filter fun t => isModifier t.job.component).map
        (fun t => (t.job.status, t.job.component)) =
      modifiersOf b.now (b.statusesOf key) := by
  unfold tickTrials statusesOf
  cases hx : b.combatant? key with
  | none => rfl
  | some x =>
    have hjobs (ts : List Trial) : ((ts.filter fun t => isModifier t.job.component).map
        fun t => (t.job.status, t.job.component)) =
          ((ts.map (·.job)).filter fun j => isModifier j.component).map
            fun j => (j.status, j.component) := by
      rw [List.filter_map, List.map_map]
      rfl
    have hmodifiers : (jobsFrom isModifier b.now 0 x.statuses).filter
        (fun j => isModifier j.component) = jobsFrom isModifier b.now 0 x.statuses :=
      List.filter_eq_self.2 fun j hj => (mem_jobsFrom.1 hj).2.2.2
    have heffects : (jobsFrom isEffect b.now 0 x.statuses).filter
        (fun j => isModifier j.component) = [] := by
      refine List.filter_eq_nil_iff.2 fun j hj => ?_
      rw [isModifier_of_isEffect (mem_jobsFrom.1 hj).2.2.2]
      nofun
    dsimp only [Option.map_some, Option.getD_some]
    rw [hjobs, map_job_trialsOf, jobs, List.filter_append, hmodifiers, heffects, List.append_nil,
      modifiers_jobsFrom]

/-- What is added to the stats of a combatant is added in its tick. -/
theorem amounts_eq (b : Battle) (key stat : String) :
    b.amounts key stat = amountsOf b.below key stat (tickTrials b.below key (b.reaching key)) := by
  rw [← trials_of, amounts, amountsOf, amountsOf, List.filterMap_filter]
  refine List.filterMap_congr fun t _ => ?_
  by_cases hkey : t.key = key
  · rw [if_pos hkey, if_pos (decide_eq_true hkey)]
  · rw [if_neg hkey, if_neg (by simpa using hkey)]

end Listing

/-! ## Updates -/

theorem renewed_update (b : Battle) (key : String) :
    Option.Rel (Combatant.Renewed b.settings.hpStat (b.amounts key))
      (b.combatant? key) ((after update b).combatant? key) := by
  have hr := keeps_below b false
  rw [after_update]
  by_cases hkey : key ∈ b.combatants.names
  · obtain ⟨hfront, behind, hbehind, hsplit⟩ := exists_behind (names_nodup b.combatants) hkey
    -- Those in front of the combatant, the combatant itself, and those behind it.
    have hall : (tickAll b.below b).2 =
        (forEach behind (tick b.below) (tick b.below key (b.reaching key)).2).2 := by
      show (forEach b.combatants.names (tick b.below) b).2 = _
      conv_lhs => rw [hsplit, forEach_append, forEach_cons]
      rfl
    have hreached : Proceeds false b (b.reaching key) := proceeds_ticks hr _ b rfl
    have hticked : Proceeds false (b.reaching key) (tick b.below key (b.reaching key)).2 :=
      passes_tick hr key _ hreached.levels_eq
    have hbefore : Option.Rel (Combatant.Shifts b.settings.hpStat fun _ => [])
        (b.combatant? key) ((b.reaching key).combatant? key) := shifts_ticks hr hfront b rfl
    have hown := renewed_tick hr key (b.reaching key) hreached.levels_eq
    have hafter := shifts_ticks hr hbehind (tick b.below key (b.reaching key)).2
      (hticked.levels_eq.trans hreached.levels_eq)
    have hsettings : (b.reaching key).settings = b.settings :=
      congrArg Rules.settings hreached.rules_eq
    have hsettings' : (tick b.below key (b.reaching key)).2.settings = b.settings :=
      (congrArg Rules.settings hticked.rules_eq).trans hsettings
    have hamounts : b.amounts key = fun stat =>
        amountsOf b.below key stat (tickTrials b.below key (b.reaching key)) :=
      funext (amounts_eq b key)
    rw [hsettings, ← hamounts] at hown
    rw [hsettings'] at hafter
    rw [hall]
    exact rel_trans (fun h k => h.behind k) (rel_trans (fun h k => k.before h) hbefore hown) hafter
  · have habsent : b.combatant? key = none :=
      Option.eq_none_iff_forall_ne_some.2 fun x hx => hkey (mem_names hx)
    have hstill : (tickAll b.below b).2.combatant? key = none :=
      (proceeds_ticks hr _ b rfl).combatant?_eq_none habsent
    rw [habsent, hstill]
    exact .none

/-- The harm of a curse fails and adds nothing. -/
example : cursed.amounts "h" "STR" = [2] := rfl

end Skirmish.Battle
