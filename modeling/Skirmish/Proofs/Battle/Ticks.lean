import Skirmish.Battle.Operations
import Skirmish.Proofs.Battle.Reach

/-!
# Ticks, one component after another

A tick runs the components of the statuses that are due, each for itself. `jobs` lists them in the
order in which they are run: those that change stats, then those that harm and heal, and within
each of the two by the place of the status and the place of the component.

1. `tick_eq`: a tick sweeps, does its jobs in that order, and stamps what was due.
2. `jobs_nodup`: no component is run twice.
3. `works_work`: what the jobs do to a battle is an evolution and changes of derived stats.
-/

namespace Skirmish.Battle

open Skirmish.Formula

/-! ## Passes -/

section Passes

variable {α β : Type}

theorem forEach_nil (pass : α → Pass) (b : Battle) : forEach [] pass b = ([], b) := rfl

theorem forEach_cons (x : α) (xs : List α) (pass : α → Pass) (b : Battle) :
    forEach (x :: xs) pass b =
      ((pass x b).1 ++ (forEach xs pass (pass x b).2).1, (forEach xs pass (pass x b).2).2) := rfl

theorem forEach_append (xs ys : List α) (pass : α → Pass) (b : Battle) :
    forEach (xs ++ ys) pass b =
      ((forEach xs pass b).1 ++ (forEach ys pass (forEach xs pass b).2).1,
        (forEach ys pass (forEach xs pass b).2).2) := by
  induction xs generalizing b with
  | nil => rfl
  | cons x rest ih => rw [List.cons_append, forEach_cons, forEach_cons, ih, List.append_assoc]

theorem forEach_map (xs : List α) (f : α → β) (pass : β → Pass) :
    forEach (xs.map f) pass = forEach xs fun x => pass (f x) := by
  funext b
  induction xs generalizing b with
  | nil => rfl
  | cons x rest ih => rw [List.map_cons, forEach_cons, forEach_cons, ih]

theorem forEach_congr {xs : List α} {pass pass' : α → Pass} (h : ∀ x ∈ xs, pass x = pass' x) :
    forEach xs pass = forEach xs pass' := by
  funext b
  induction xs generalizing b with
  | nil => rfl
  | cons x rest ih =>
    rw [forEach_cons, forEach_cons, h x List.mem_cons_self,
      ih fun y hy => h y (List.mem_cons_of_mem x hy)]

theorem snd_attempt (act : Action Battle Unit) (b : Battle) :
    (attempt act b).2 = after act b := by
  unfold attempt after
  cases act b <;> rfl

end Passes

/-! ## Jobs -/

/-- Whether the components of a status are run in a tick at that time. -/
def ActiveStatus.isRun (s : ActiveStatus) (now : Timestamp) : Bool :=
  !s.isExpired now && s.isDue now

theorem ActiveStatus.isRun_of_not_isExpired {s : ActiveStatus} {now : Timestamp}
    (h : ¬s.isExpired now = true) : s.isRun now = s.isDue now := by
  unfold isRun
  rw [eq_false_of_ne_true h]
  rfl

/-- A component that is to be run: which one of which status. -/
structure Job where
  /-- the place of the status among those of the combatant -/
  place : Nat
  status : ActiveStatus
  /-- the place of the component among those of the effect -/
  part : Nat
  component : Expr

/-- Runs the component. -/
def Job.perform (resolver : Resolver) (key : String) (j : Job) : Action Battle Unit :=
  if isModifier j.component then applyModifier resolver key j.status j.component
  else applyEffect resolver key j.status j.component

/-- The components of a status that satisfy `p`. -/
def jobsOf (p : Expr → Bool) (place : Nat) (s : ActiveStatus) : List Job :=
  (s.effect.components.zipIdx.filter (p ·.1)).map fun e => ⟨place, s, e.2, e.1⟩

/-- The components that satisfy `p` of the statuses that are run, from a place on. -/
def jobsFrom (p : Expr → Bool) (now : Timestamp) (place : Nat) (l : List ActiveStatus) :
    List Job :=
  (l.zipIdx place).flatMap fun s => if s.1.isRun now then jobsOf p s.2 s.1 else []

/-- What a tick at that time does with these statuses, in order. -/
def jobs (now : Timestamp) (l : List ActiveStatus) : List Job :=
  jobsFrom isModifier now 0 l ++ jobsFrom isEffect now 0 l

/-- Does jobs in order. -/
def work (resolver : Resolver) (key : String) (js : List Job) : Pass :=
  forEach js fun j => attempt (j.perform resolver key)

/-- The statuses of a combatant; none if it is not there. -/
def statusesOf (b : Battle) (key : String) : List ActiveStatus :=
  ((b.combatant? key).map (·.statuses)).getD []

theorem statusesOf_of_some {b : Battle} {key : String} {x : Combatant}
    (h : b.combatant? key = some x) : b.statusesOf key = x.statuses := by
  unfold statusesOf
  rw [h]
  rfl

/-- The ids of the statuses that are run. -/
def runIds (now : Timestamp) (l : List ActiveStatus) : List Nat :=
  (l.filter (·.isRun now)).map (·.id)

/-- A component that harms or heals changes no stat. -/
theorem isModifier_of_isEffect {e : Expr} (h : isEffect e = true) : isModifier e = false := by
  unfold isEffect isModifier Expr.isCallTo at *
  cases hf : e.functionName? with
  | none => rfl
  | some name =>
    rw [hf] at h
    refine decide_eq_false fun hm => ?_
    rw [hm] at h
    revert h
    decide

section Jobs

variable (resolver : Resolver) (key : String) (now : Timestamp)

theorem filter_eq_map_zipIdx (p : Expr → Bool) (es : List Expr) :
    es.filter p = (es.zipIdx.filter (p ·.1)).map (·.1) := by
  rw [← Function.comp_def p, ← List.filter_map, List.zipIdx_map_fst]

theorem work_jobsOf {p : Expr → Bool} {act : ActiveStatus → Expr → Action Battle Unit}
    (h : ∀ j : Job, p j.component = true → j.perform resolver key = act j.status j.component)
    (place : Nat) (s : ActiveStatus) :
    work resolver key (jobsOf p place s) =
      forEach (s.effect.components.filter p) fun e => attempt (act s e) := by
  unfold work jobsOf
  rw [filter_eq_map_zipIdx, forEach_map, forEach_map]
  refine forEach_congr fun e he => ?_
  rw [h ⟨place, s, e.2, e.1⟩ (List.mem_filter.1 he).2]

theorem work_jobsFrom {p : Expr → Bool} {act : ActiveStatus → Expr → Action Battle Unit}
    (h : ∀ j : Job, p j.component = true → j.perform resolver key = act j.status j.component)
    (place : Nat) (l : List ActiveStatus) :
    work resolver key (jobsFrom p now place l) =
      forEach (l.filter (·.isRun now)) fun s =>
        forEach (s.effect.components.filter p) fun e => attempt (act s e) := by
  funext b
  induction l generalizing place b with
  | nil => rfl
  | cons s rest ih =>
    have hsplit : work resolver key (jobsFrom p now place (s :: rest)) b =
        forEach ((if s.isRun now then jobsOf p place s else []) ++
          jobsFrom p now (place + 1) rest) (fun j => attempt (j.perform resolver key)) b := rfl
    have hrest (c : Battle) := ih (place + 1) c
    unfold work at hrest
    rw [hsplit, forEach_append]
    by_cases hs : s.isRun now = true
    · have hs' := congrFun (work_jobsOf resolver key h place s) b
      unfold work at hs'
      rw [if_pos hs, List.filter_cons, if_pos hs, forEach_cons, hs', hrest]
    · rw [if_neg hs, List.filter_cons, if_neg hs, forEach_nil, hrest]
      rfl

theorem work_append (js js' : List Job) (b : Battle) :
    work resolver key (js ++ js') b =
      ((work resolver key js b).1 ++ (work resolver key js' (work resolver key js b).2).1,
        (work resolver key js' (work resolver key js b).2).2) :=
  forEach_append js js' _ b

/-- **Ticks.** A tick sweeps, does its jobs, and stamps the statuses that were run. -/
theorem tick_eq {b : Battle} {x : Combatant} (hx : b.combatant? key = some x) :
    tick resolver key b =
      ((work resolver key (jobs b.now x.statuses) (b.alter key (sweep b.now))).1,
        (work resolver key (jobs b.now x.statuses) (b.alter key (sweep b.now))).2.alter key
          (stamp b.now (runIds b.now x.statuses))) := by
  have hdue : (sweep b.now x).statuses.filter (·.isDue b.now) =
      x.statuses.filter (·.isRun b.now) := by
    show (x.statuses.filter (!·.isExpired b.now)).filter (·.isDue b.now) = _
    rw [List.filter_filter]
    refine List.filter_congr fun s _ => ?_
    exact Bool.and_comm _ _
  have hfirst : work resolver key (jobsFrom isModifier b.now 0 x.statuses) =
      modifiersPass resolver key (x.statuses.filter (·.isRun b.now)) :=
    work_jobsFrom resolver key b.now (fun j hj => if_pos hj) 0 x.statuses
  have hsecond : work resolver key (jobsFrom isEffect b.now 0 x.statuses) =
      effectsPass resolver key (x.statuses.filter (·.isRun b.now)) :=
    work_jobsFrom resolver key b.now (fun j hj => if_neg (by simp [isModifier_of_isEffect hj])) 0
      x.statuses
  unfold jobs
  rw [work_append, hfirst, hsecond]
  unfold tick runIds
  simp only [hx, hdue]
  rfl

theorem tick_of_absent {b : Battle} (h : b.combatant? key = none) :
    tick resolver key b = ([], b) := by
  unfold tick
  simp only [h]

theorem alter_of_absent {b : Battle} (h : b.combatant? key = none) (f : Combatant → Combatant) :
    b.alter key f = b := by
  have hcombatants : (b.alter key f).combatants = b.combatants := by
    refine Table.ext_get? fun other => ?_
    show (b.alter key f).combatant? other = b.combatant? other
    rw [combatant?_alter]
    split
    · next ho => rw [ho, h]; rfl
    · rfl
  show { b with combatants := (b.alter key f).combatants } = b
  rw [hcombatants]

end Jobs

/-! ## Which jobs there are -/

section Listing

variable {p : Expr → Bool} {now : Timestamp}

theorem mem_jobsOf {place : Nat} {s : ActiveStatus} {j : Job} :
    j ∈ jobsOf p place s ↔
      j.place = place ∧ j.status = s ∧ s.effect.components[j.part]? = some j.component ∧
        p j.component = true := by
  unfold jobsOf
  rw [List.mem_map]
  constructor
  · rintro ⟨⟨e, i⟩, he, rfl⟩
    obtain ⟨he, hp⟩ := List.mem_filter.1 he
    exact ⟨rfl, rfl, List.mem_zipIdx_iff_getElem?.1 he, hp⟩
  · rintro ⟨rfl, rfl, he, hp⟩
    exact ⟨(j.component, j.part), List.mem_filter.2 ⟨List.mem_zipIdx_iff_getElem?.2 he, hp⟩, rfl⟩

theorem jobsFrom_cons (place : Nat) (s : ActiveStatus) (rest : List ActiveStatus) :
    jobsFrom p now place (s :: rest) =
      (if s.isRun now then jobsOf p place s else []) ++ jobsFrom p now (place + 1) rest := rfl

theorem mem_jobsFrom {place : Nat} {l : List ActiveStatus} {j : Job} :
    j ∈ jobsFrom p now place l ↔
      (∃ i, j.place = place + i ∧ l[i]? = some j.status) ∧ j.status.isRun now = true ∧
        j.status.effect.components[j.part]? = some j.component ∧ p j.component = true := by
  induction l generalizing place with
  | nil => simp [jobsFrom]
  | cons s rest ih =>
    rw [jobsFrom_cons, List.mem_append, ih]
    constructor
    · rintro (h | ⟨⟨i, hplace, hi⟩, hrest⟩)
      · by_cases hs : s.isRun now = true
        · rw [if_pos hs] at h
          obtain ⟨hplace, rfl, hcomponent⟩ := mem_jobsOf.1 h
          exact ⟨⟨0, hplace, rfl⟩, hs, hcomponent⟩
        · rw [if_neg hs] at h
          cases h
      · exact ⟨⟨i + 1, by omega, hi⟩, hrest⟩
    · rintro ⟨⟨i, hplace, hi⟩, hrun, hcomponent⟩
      cases i with
      | zero =>
        obtain rfl : s = j.status := by simpa using hi
        rw [if_pos hrun]
        exact .inl (mem_jobsOf.2 ⟨hplace, rfl, hcomponent⟩)
      | succ i => exact .inr ⟨⟨i, by omega, hi⟩, hrun, hcomponent⟩

/-- Whose turn comes first among components of the same kind. -/
def Job.Before (j k : Job) : Prop := j.place < k.place ∨ j.place = k.place ∧ j.part < k.part

theorem pairwise_jobsOf (place : Nat) (s : ActiveStatus) :
    (jobsOf p place s).Pairwise Job.Before := by
  have hparts : (s.effect.components.zipIdx).Pairwise fun e f => e.2 < f.2 := by
    rw [← List.pairwise_map, List.zipIdx_map_snd]
    exact List.pairwise_lt_range'
  unfold jobsOf
  rw [List.pairwise_map]
  exact (hparts.filter _).imp fun h => .inr ⟨rfl, h⟩

/-- Statuses in the order of the list, and their components in the order of the effect. -/
theorem pairwise_jobsFrom (place : Nat) (l : List ActiveStatus) :
    (jobsFrom p now place l).Pairwise Job.Before := by
  induction l generalizing place with
  | nil => exact .nil
  | cons s rest ih =>
    rw [jobsFrom_cons, List.pairwise_append]
    refine ⟨?_, ih (place + 1), fun j hj k hk => .inl ?_⟩
    · split
      · exact pairwise_jobsOf place s
      · exact .nil
    · obtain ⟨⟨i, hplace, -⟩, -⟩ := mem_jobsFrom.1 hk
      split at hj
      · obtain ⟨hj, -⟩ := mem_jobsOf.1 hj
        omega
      · cases hj

theorem mem_jobs {l : List ActiveStatus} {j : Job} :
    j ∈ jobs now l ↔
      l[j.place]? = some j.status ∧ j.status.isRun now = true ∧
        j.status.effect.components[j.part]? = some j.component ∧
          (isModifier j.component = true ∨ isEffect j.component = true) := by
  unfold jobs
  rw [List.mem_append, mem_jobsFrom, mem_jobsFrom]
  constructor
  · rintro (⟨⟨i, hplace, hi⟩, hrun, hcomponent, hkind⟩ | ⟨⟨i, hplace, hi⟩, hrun, hcomponent, hkind⟩)
    · rw [Nat.zero_add] at hplace
      exact ⟨hplace ▸ hi, hrun, hcomponent, .inl hkind⟩
    · rw [Nat.zero_add] at hplace
      exact ⟨hplace ▸ hi, hrun, hcomponent, .inr hkind⟩
  · rintro ⟨hstatus, hrun, hcomponent, hkind | hkind⟩
    · exact .inl ⟨⟨_, (Nat.zero_add _).symm, hstatus⟩, hrun, hcomponent, hkind⟩
    · exact .inr ⟨⟨_, (Nat.zero_add _).symm, hstatus⟩, hrun, hcomponent, hkind⟩

theorem Job.Before.ne {j k : Job} (h : j.Before k) : j ≠ k := by
  rintro rfl
  rcases h with h | ⟨-, h⟩
  · exact Nat.lt_irrefl _ h
  · exact Nat.lt_irrefl _ h

/-- No component is run twice in a tick. -/
theorem jobs_nodup (now : Timestamp) (l : List ActiveStatus) : (jobs now l).Nodup := by
  refine List.nodup_append.2 ⟨(pairwise_jobsFrom 0 l).imp Job.Before.ne,
    (pairwise_jobsFrom 0 l).imp Job.Before.ne, fun j hj k hk => ?_⟩
  rintro rfl
  obtain ⟨-, -, -, hmodifier⟩ := mem_jobsFrom.1 hj
  obtain ⟨-, -, -, heffect⟩ := mem_jobsFrom.1 hk
  rw [isModifier_of_isEffect heffect] at hmodifier
  cases hmodifier

/-- A place and a part determine the job. -/
theorem eq_of_mem_jobs {l : List ActiveStatus} {j k : Job} (hj : j ∈ jobs now l)
    (hk : k ∈ jobs now l) (hplace : j.place = k.place) (hpart : j.part = k.part) : j = k := by
  obtain ⟨hs, -, he, -⟩ := mem_jobs.1 hj
  obtain ⟨hs', -, he', -⟩ := mem_jobs.1 hk
  rw [hplace, hs'] at hs
  have hstatus : j.status = k.status := (Option.some.inj hs).symm
  rw [hstatus, hpart, he'] at he
  have hcomponent : j.component = k.component := (Option.some.inj he).symm
  cases j
  cases k
  simp only at hplace hpart hstatus hcomponent
  rw [hplace, hpart, hstatus, hcomponent]

end Listing

/-! ## What jobs do to a battle -/

/-- What the components of statuses can make of a battle: what formulas can, and changes of
derived stats. -/
inductive Works (silent : Bool) : Battle → Battle → Prop
  | trans {b c d : Battle} : Works silent b c → Works silent c d → Works silent b d
  | evolve {b c : Battle} (h : Evolves silent b c) : Works silent b c
  | modify (b : Battle) (key stat : String) (amount : Float) :
      Works silent b (b.alter key (·.adjustDerived stat amount))

theorem Works.levels_eq {silent : Bool} {b c : Battle} (h : Works silent b c) :
    c.levels = b.levels := by
  induction h with
  | trans _ _ ih ih' => exact ih'.trans ih
  | evolve h => exact h.frame.levels_eq
  | modify => rfl

/-- A pass relates the battles before and after it, with `n` levels left. -/
def Passes (R : Battle → Battle → Prop) (n : Nat) (pass : Pass) : Prop :=
  ∀ b : Battle, b.levels = n → R b (pass b).2

theorem passes_forEach {α : Type} {R : Battle → Battle → Prop} {n : Nat} {xs : List α}
    {pass : α → Pass} (refl : ∀ b, R b b) (trans : ∀ {b c d}, R b c → R c d → R b d)
    (levels : ∀ {b c}, R b c → c.levels = b.levels) (h : ∀ x, Passes R n (pass x)) :
    Passes R n (forEach xs pass) := by
  induction xs with
  | nil => exact fun b _ => refl b
  | cons x rest ih =>
    intro b hn
    have hx := h x b hn
    exact trans hx (ih (pass x b).2 ((levels hx).trans hn))

section Working

variable {silent : Bool} {n : Nat} {resolver : Resolver}
  (hr : ∀ m, m + 1 = n → ∀ e, Keeps (At silent m) (resolver e))

include hr

theorem keeps_evalComponent {target : String} {s : ActiveStatus} {component : Expr} :
    Keeps (At silent n) (evalComponent resolver target s component) :=
  keeps_deeper fun m hm => keeps_resolveStatus (hr m hm)

theorem works_applyModifier {target : String} {s : ActiveStatus} {component : Expr} (b : Battle)
    (hn : b.levels = n) : Works silent b (after (applyModifier resolver target s component) b) := by
  unfold applyModifier
  cases hv : evalComponent resolver target s component b with
  | error err c =>
    rw [after_bind_of_error hv]
    exact .evolve ((keeps_evalComponent hr).of_error hv hn)
  | ok v c =>
    have hc : Evolves silent b c := (keeps_evalComponent hr).of_ok hv hn
    rw [after_bind_of_ok hv]
    cases v.asModifier with
    | error err => exact .evolve hc
    | ok change => exact (Works.evolve hc).trans (.modify c target change.1 change.2)

theorem works_perform_job (key : String) (j : Job) (b : Battle) (hn : b.levels = n) :
    Works silent b (after (j.perform resolver key) b) := by
  unfold Job.perform
  split
  · exact works_applyModifier hr b hn
  · exact .evolve (keeps_discard (keeps_evalComponent hr) b hn)

theorem works_work (key : String) (js : List Job) :
    Passes (Works silent) n (work resolver key js) := by
  refine passes_forEach (fun b => .evolve (.refl b)) .trans Works.levels_eq fun j b hn => ?_
  rw [snd_attempt]
  exact works_perform_job hr key j b hn

/-- A tick sweeps, lets the components do their work, and stamps the statuses that were run. -/
theorem works_tick (key : String) (b : Battle) (hn : b.levels = n) :
    ∃ c, Works silent (b.alter key (sweep b.now)) c ∧
      (tick resolver key b).2 = c.alter key (stamp b.now (runIds b.now (b.statusesOf key))) := by
  cases hx : b.combatant? key with
  | none =>
    refine ⟨b, ?_, ?_⟩
    · rw [alter_of_absent key hx]
      exact .evolve (.refl b)
    · rw [tick_of_absent resolver key hx, alter_of_absent key hx]
  | some x =>
    rw [tick_eq resolver key hx, statusesOf_of_some hx]
    exact ⟨_, works_work hr key (jobs b.now x.statuses) _ hn, rfl⟩

end Working

end Skirmish.Battle
