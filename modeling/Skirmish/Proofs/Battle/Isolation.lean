import Skirmish.Proofs.Battle.Alike
import Skirmish.Proofs.Battle.Instances

/-!
# Failures in an update

A component that fails is given up, and only it.

1. `trials` lists the components that an update runs, in order, with the battle in which each one
   is run, and `failures` those that fail. The faults that an update collects are theirs.
2. `relieve` takes the components that fail off the statuses that carry them. The run of an update
   on the relieved battle is compared with the run on the battle itself: while a combatant waits for
   its tick, its statuses differ as they did at the start (`Waiting`); from its tick on, each status
   is what it is in the other battle, or lacks what was taken off (`Done`).
3. `stamped_update`: whatever fails, the statuses that were due are stamped.
4. `update_isolated`: where every failing component leaves its battle as it was, both runs end
   alike.
-/

namespace Skirmish.Battle

open Skirmish.Formula

/-! ## Trials -/

/-- A component that is run in a tick: whose it is, which one, and in which battle it is run. -/
structure Trial where
  key : String
  job : Job
  battle : Battle

namespace Trial

/-- The fault of the component, if it fails. -/
def fault? (resolver : Resolver) (t : Trial) : Option EvalError :=
  match t.job.perform resolver t.key t.battle with
  | .ok _ _ => none
  | .error e _ => some e

/-- The component leaves the battle as it was. -/
def Harmless (resolver : Resolver) (t : Trial) : Prop :=
  after (t.job.perform resolver t.key) t.battle = t.battle

/-- The trial is of that component of that status of that combatant. -/
def isOf (t : Trial) (key : String) (place part : Nat) : Bool :=
  t.key = key && t.job.place = place && t.job.part = part

end Trial

/-- The trials of jobs in order. -/
def trialsOf (resolver : Resolver) (key : String) : List Job → Battle → List Trial
  | [], _ => []
  | j :: js, b => ⟨key, j, b⟩ :: trialsOf resolver key js (after (j.perform resolver key) b)

/-- The trials of a tick. -/
def tickTrials (resolver : Resolver) (key : String) (b : Battle) : List Trial :=
  match b.combatant? key with
  | none => []
  | some x => trialsOf resolver key (jobs b.now x.statuses) (b.alter key (sweep b.now))

/-- The trials of one tick after another. -/
def ticksTrials (resolver : Resolver) : List String → Battle → List Trial
  | [], _ => []
  | key :: keys, b =>
    tickTrials resolver key b ++ ticksTrials resolver keys (tick resolver key b).2

/-- The trials of an update. -/
def trials (b : Battle) : List Trial := ticksTrials b.below b.combatants.names b

/-- The components that fail in an update, in the order in which they are run. -/
def failures (b : Battle) : List Trial := b.trials.filter fun t => (t.fault? b.below).isSome

section Faults

variable (r : Resolver) (key : String)

theorem trialsOf_cons (j : Job) (js : List Job) (b : Battle) :
    trialsOf r key (j :: js) b =
      ⟨key, j, b⟩ :: trialsOf r key js (after (j.perform r key) b) := rfl

theorem fst_work (js : List Job) (b : Battle) :
    (work r key js b).1 = (trialsOf r key js b).filterMap (·.fault? r) := by
  induction js generalizing b with
  | nil => rfl
  | cons j js ih =>
    have hsplit : work r key (j :: js) b =
        ((attempt (j.perform r key) b).1 ++ (work r key js (attempt (j.perform r key) b).2).1,
          (work r key js (attempt (j.perform r key) b).2).2) := rfl
    have hfirst : (attempt (j.perform r key) b).1 = (Trial.fault? r ⟨key, j, b⟩).toList := by
      unfold attempt Trial.fault?
      cases j.perform r key b <;> rfl
    rw [hsplit, snd_attempt, hfirst, trialsOf_cons, List.filterMap_cons]
    dsimp only
    rw [ih]
    cases Trial.fault? r ⟨key, j, b⟩ <;> rfl

theorem fst_tick (b : Battle) :
    (tick r key b).1 = (tickTrials r key b).filterMap (·.fault? r) := by
  unfold tickTrials
  cases hx : b.combatant? key with
  | none => rw [tick_of_absent r key hx]; rfl
  | some x => rw [tick_eq r key hx]; exact fst_work r key _ _

theorem fst_forEach_tick (keys : List String) (b : Battle) :
    (forEach keys (tick r) b).1 = (ticksTrials r keys b).filterMap (·.fault? r) := by
  induction keys generalizing b with
  | nil => rfl
  | cons key rest ih =>
    unfold ticksTrials
    rw [forEach_cons, List.filterMap_append, ih, fst_tick]

end Faults

/-- The faults of an update are those of the components that fail. -/
theorem fst_tickAll (b : Battle) :
    (tickAll b.below b).1 = b.failures.filterMap (·.fault? b.below) := by
  unfold failures trials
  rw [List.filterMap_filter]
  refine (fst_forEach_tick b.below _ b).trans (List.filterMap_congr fun t _ => ?_)
  cases t.fault? b.below <;> rfl

section Trials

variable {r : Resolver} {key : String} {t u : Trial} {js : List Job} {b : Battle}

theorem of_mem_trialsOf (h : t ∈ trialsOf r key js b) : t.key = key ∧ t.job ∈ js := by
  induction js generalizing b with
  | nil => cases h
  | cons j js ih =>
    rcases List.mem_cons.1 h with rfl | h
    · exact ⟨rfl, List.mem_cons_self⟩
    · exact ⟨(ih h).1, List.mem_cons_of_mem j (ih h).2⟩

/-- A job has one trial. -/
theorem eq_of_mem_trialsOf (hjs : js.Nodup) (ht : t ∈ trialsOf r key js b)
    (hu : u ∈ trialsOf r key js b) (h : t.job = u.job) : t = u := by
  induction js generalizing b with
  | nil => cases ht
  | cons j js ih =>
    obtain ⟨hj, hjs⟩ := List.nodup_cons.1 hjs
    rcases List.mem_cons.1 ht with rfl | ht
    · rcases List.mem_cons.1 hu with rfl | hu
      · rfl
      · have hmem : u.job ∈ js := (of_mem_trialsOf hu).2
        rw [← h] at hmem
        exact absurd hmem hj
    · rcases List.mem_cons.1 hu with rfl | hu
      · have hmem : t.job ∈ js := (of_mem_trialsOf ht).2
        rw [h] at hmem
        exact absurd hmem hj
      · exact ih hjs ht hu

theorem key_of_mem_tickTrials (h : t ∈ tickTrials r key b) : t.key = key := by
  unfold tickTrials at h
  split at h
  · cases h
  · exact (of_mem_trialsOf h).1

theorem key_of_mem_ticksTrials {keys : List String} (h : t ∈ ticksTrials r keys b) :
    t.key ∈ keys := by
  induction keys generalizing b with
  | nil => cases h
  | cons key rest ih =>
    rcases List.mem_append.1 h with h | h
    · exact key_of_mem_tickTrials h ▸ List.mem_cons_self
    · exact List.mem_cons_of_mem key (ih h)

end Trials

/-! ## Statuses without some of their components -/

/-- The status without the components at the places in `cut`. -/
def ActiveStatus.without (cut : Nat → Bool) (s : ActiveStatus) : ActiveStatus :=
  { s with effect := { s.effect with
      components := (s.effect.components.zipIdx.filter (!cut ·.2)).map (·.1) } }

/-- Statuses without the components at these places: first that of the status, then that of the
component. -/
def lighten (cut : Nat → Nat → Bool) (l : List ActiveStatus) : List ActiveStatus :=
  l.mapIdx fun place s => s.without (cut place)

/-- The components that are to be taken off the statuses of a combatant. -/
def cutOf (failed : List Trial) (key : String) (place part : Nat) : Bool :=
  failed.any (·.isOf key place part)

/-- Takes components off the statuses that carry them. -/
def relieve (failed : List Trial) (b : Battle) : Battle :=
  { b with combatants := b.combatants.map fun key c =>
      { c with statuses := lighten (cutOf failed key) c.statuses } }

/-- What running a component depends on. -/
def Job.task (j : Job) : String × List Float × Expr :=
  (j.status.source, j.status.values, j.component)

section Cutting

variable {p : Expr → Bool} {now : Timestamp}

theorem perform_congr {j k : Job} (h : j.task = k.task) (resolver : Resolver) (key : String) :
    j.perform resolver key = k.perform resolver key := by
  unfold Job.task at h
  simp only [Prod.mk.injEq] at h
  obtain ⟨hsource, hvalues, hcomponent⟩ := h
  unfold Job.perform applyModifier applyEffect evalComponent
  rw [hsource, hvalues, hcomponent]

theorem without_of_forall (s : ActiveStatus) {cut : Nat → Bool} (h : ∀ part, cut part = false) :
    s.without cut = s := by
  unfold ActiveStatus.without
  simp only [h, Bool.not_false, List.filter_true, List.zipIdx_map_fst]

theorem task_jobsOf (place : Nat) (s : ActiveStatus) :
    (jobsOf p place s).map Job.task =
      (s.effect.components.filter p).map fun e => (s.source, s.values, e) := by
  unfold jobsOf
  rw [filter_eq_map_zipIdx, List.map_map, List.map_map]
  rfl

/-- What is left to be run of a status without some components. -/
theorem task_jobsOf_without (place : Nat) (s : ActiveStatus) (cut : Nat → Bool) :
    ((jobsOf p place s).filter (!cut ·.part)).map Job.task =
      (jobsOf p place (s.without cut)).map Job.task := by
  rw [task_jobsOf]
  unfold jobsOf ActiveStatus.without
  dsimp only
  rw [List.filter_map, List.filter_map, List.map_map, List.map_map, List.filter_filter,
    List.filter_filter]
  refine congrArg _ (List.filter_congr fun e _ => ?_)
  exact Bool.and_comm _ _

theorem task_jobsFrom_lighten (place : Nat) (l : List ActiveStatus) (cut : Nat → Nat → Bool) :
    ((jobsFrom p now place l).filter fun j => !cut j.place j.part).map Job.task =
      (jobsFrom p now place (l.mapIdx fun i s => s.without (cut (place + i)))).map Job.task := by
  induction l generalizing place with
  | nil => rfl
  | cons s rest ih =>
    have hrest : (rest.mapIdx fun i s => s.without (cut (place + (i + 1)))) =
        rest.mapIdx fun i s => s.without (cut (place + 1 + i)) := by
      simp only [Nat.add_assoc, Nat.add_comm 1]
    rw [List.mapIdx_cons, jobsFrom_cons, jobsFrom_cons, List.filter_append, List.map_append,
      List.map_append, hrest, ih (place + 1)]
    refine congrArg (· ++ _) ?_
    show _ = List.map Job.task (if s.isRun now then jobsOf p place (s.without (cut place)) else [])
    by_cases hs : s.isRun now = true
    · rw [if_pos hs, if_pos hs, ← task_jobsOf_without]
      refine congrArg _ (List.filter_congr fun j hj => ?_)
      rw [(mem_jobsOf.1 hj).1]
    · rw [if_neg hs, if_neg hs]
      rfl

/-- What is left to be done of a tick with lighter statuses. -/
theorem task_jobs_lighten (l : List ActiveStatus) (cut : Nat → Nat → Bool) :
    ((jobs now l).filter fun j => !cut j.place j.part).map Job.task =
      (jobs now (lighten cut l)).map Job.task := by
  have hfrom (p : Expr → Bool) :
      ((jobsFrom p now 0 l).filter fun j => !cut j.place j.part).map Job.task =
        (jobsFrom p now 0 (l.mapIdx fun place s => s.without (cut place))).map Job.task := by
    rw [task_jobsFrom_lighten]
    simp only [Nat.zero_add]
  unfold jobs lighten
  rw [List.filter_append, List.map_append, List.map_append, hfrom, hfrom]

theorem runIds_lighten (l : List ActiveStatus) (cut : Nat → Nat → Bool) :
    runIds now (lighten cut l) = runIds now l := by
  unfold lighten runIds
  induction l generalizing cut with
  | nil => rfl
  | cons s rest ih =>
    have hs : (s.without (cut 0)).isRun now = s.isRun now := rfl
    rw [List.mapIdx_cons, List.filter_cons, List.filter_cons, hs]
    split
    · rw [List.map_cons, List.map_cons, ih fun place => cut (place + 1)]
      rfl
    · exact ih fun place => cut (place + 1)

theorem refreshFirst_lighten (key : String) (removal : Option Timestamp) (l : List ActiveStatus)
    (cut : Nat → Nat → Bool) :
    refreshFirst key removal (lighten cut l) = lighten cut (refreshFirst key removal l) := by
  unfold lighten
  induction l generalizing cut with
  | nil => rfl
  | cons s rest ih =>
    have hs : (s.without (cut 0)).key = s.key := rfl
    rw [List.mapIdx_cons]
    unfold refreshFirst
    rw [hs]
    split
    · rw [List.mapIdx_cons]
      rfl
    · rw [List.mapIdx_cons, ih fun place => cut (place + 1)]

end Cutting

/-! ## How the statuses of both battles relate -/

/-- The instance `s` was the one at `place` when the update began. -/
def StoodAt (start : List ActiveStatus) (place : Nat) (s : ActiveStatus) : Prop :=
  ∃ s₀, start[place]? = some s₀ ∧ s.id = s₀.id ∧ s.effect = s₀.effect

/-- Until its tick the statuses of a combatant are those at the start, with others behind them, and
in the other battle those at the start lack what was taken off. -/
structure Waiting (cut : Nat → Nat → Bool) (start l l' : List ActiveStatus) : Prop where
  lighter : l' = lighten (fun place part => decide (place < start.length) && cut place part) l
  stood : start.map (fun s => (s.id, s.effect)) <+: l.map fun s => (s.id, s.effect)

/-- The instances are the same, or one lacks what was taken off where the other stood. -/
def Counterpart (cut : Nat → Nat → Bool) (start : List ActiveStatus) (s s' : ActiveStatus) : Prop :=
  s' = s ∨ ∃ place, StoodAt start place s ∧ s' = s.without (cut place)

/-- From its tick on the statuses of a combatant are counterparts. -/
def Done (cut : Nat → Nat → Bool) (start l l' : List ActiveStatus) : Prop :=
  List.Forall₂ (Counterpart cut start) l l'

section Relations

variable {cut : Nat → Nat → Bool} {start l l' : List ActiveStatus}

theorem keys_lighten (cut : Nat → Nat → Bool) (l : List ActiveStatus) :
    (lighten cut l).map (·.key) = l.map (·.key) := by
  unfold lighten
  refine List.ext_getElem? fun i => ?_
  rw [List.getElem?_map, List.getElem?_mapIdx, List.getElem?_map, Option.map_map]
  rfl

theorem tags_refreshFirst (key : String) (removal : Option Timestamp) (l : List ActiveStatus) :
    (refreshFirst key removal l).map (fun s => (s.id, s.effect)) =
      l.map fun s => (s.id, s.effect) := by
  have h (l : List ActiveStatus) : l.map (fun s => (s.id, s.effect)) =
      (l.map ActiveStatus.endless).map fun s => (s.id, s.effect) := by
    rw [List.map_map]
    rfl
  rw [h, map_endless_refreshFirst, ← h]

theorem Waiting.length_le (h : Waiting cut start l l') : start.length ≤ l.length := by
  have hle := h.stood.length_le
  rwa [List.length_map, List.length_map] at hle

theorem Waiting.append (h : Waiting cut start l l') (s : ActiveStatus) :
    Waiting cut start (l ++ [s]) (l' ++ [s]) := by
  have hlen := h.length_le
  refine ⟨?_, ?_⟩
  · have hs : s.without
        (fun part => decide (l.length < start.length) && cut l.length part) = s := by
      refine without_of_forall s fun part => ?_
      rw [decide_eq_false (by omega), Bool.false_and]
    unfold lighten
    rw [List.mapIdx_concat, hs, h.lighter]
    rfl
  · rw [List.map_append]
    exact h.stood.trans (List.prefix_append ..)

theorem Waiting.refresh (h : Waiting cut start l l') (status : String)
    (removal : Option Timestamp) :
    Waiting cut start (refreshFirst status removal l) (refreshFirst status removal l') := by
  refine ⟨?_, ?_⟩
  · rw [h.lighter, refreshFirst_lighten]
  · rw [tags_refreshFirst]
    exact h.stood

theorem Waiting.stoodAt (h : Waiting cut start l l') {place : Nat} {s : ActiveStatus}
    (hplace : place < start.length) (hs : l[place]? = some s) : StoodAt start place s := by
  obtain ⟨rest, hrest⟩ := h.stood
  have htag : (l.map fun s => (s.id, s.effect))[place]? =
      (start.map fun s => (s.id, s.effect))[place]? := by
    rw [← hrest, List.getElem?_append_left (by rwa [List.length_map])]
  rw [List.getElem?_map, List.getElem?_map, hs, List.getElem?_eq_getElem hplace] at htag
  simp only [Option.map_some, Option.some.injEq, Prod.mk.injEq] at htag
  exact ⟨start[place], List.getElem?_eq_getElem hplace, htag.1, htag.2⟩

/-- When its tick begins, a combatant has waited. -/
theorem Waiting.done (h : Waiting cut start l l') : Done cut start l l' := by
  have hlen : l.length = l'.length := by
    rw [h.lighter]
    unfold lighten
    rw [List.length_mapIdx]
  refine List.forall₂_iff_get.2 ⟨hlen, fun i hi hi' => ?_⟩
  have hget : l'[i]? = some (l[i].without
      fun part => decide (i < start.length) && cut i part) := by
    rw [h.lighter]
    unfold lighten
    rw [List.getElem?_mapIdx, List.getElem?_eq_getElem hi]
    rfl
  rw [List.getElem?_eq_getElem hi', Option.some.injEq] at hget
  show Counterpart cut start l[i] l'[i]
  rw [hget]
  by_cases hstart : i < start.length
  · refine .inr ⟨i, h.stoodAt hstart (List.getElem?_eq_getElem hi), ?_⟩
    simp only [hstart, decide_true, Bool.true_and]
  · refine .inl (without_of_forall _ fun part => ?_)
    rw [decide_eq_false hstart, Bool.false_and]

/-- Changes that keep the id and the effect, and that do not look at the effect. -/
theorem Counterpart.map {s s' : ActiveStatus} (h : Counterpart cut start s s')
    {f : ActiveStatus → ActiveStatus} (hid : (f s).id = s.id) (heffect : (f s).effect = s.effect)
    (hf : ∀ cut : Nat → Bool, f (s.without cut) = (f s).without cut) :
    Counterpart cut start (f s) (f s') := by
  rcases h with rfl | ⟨place, ⟨s₀, hs₀, hsid, hseffect⟩, rfl⟩
  · exact .inl rfl
  · exact .inr ⟨place, ⟨s₀, hs₀, hid.trans hsid, heffect.trans hseffect⟩, hf _⟩

/-- Counterparts differ in their components alone. -/
theorem Counterpart.eq_of_blind {α : Type} {s s' : ActiveStatus} (h : Counterpart cut start s s')
    {f : ActiveStatus → α} (hf : ∀ cut : Nat → Bool, f (s.without cut) = f s) : f s' = f s := by
  rcases h with rfl | ⟨place, -, rfl⟩
  · rfl
  · exact hf _

theorem Done.append (h : Done cut start l l') (s : ActiveStatus) :
    Done cut start (l ++ [s]) (l' ++ [s]) :=
  List.rel_append h (.cons (.inl rfl) .nil)

theorem Done.refresh (h : Done cut start l l') (status : String) (removal : Option Timestamp) :
    Done cut start (refreshFirst status removal l) (refreshFirst status removal l') := by
  unfold Done at *
  induction h with
  | nil => exact .nil
  | cons hs hrest ih =>
    rename_i s s' l l'
    have hkey : s'.key = s.key := hs.eq_of_blind fun _ => rfl
    unfold refreshFirst
    rw [hkey]
    split
    · exact .cons (hs.map (f := fun s => { s with removal }) rfl rfl fun _ => rfl) hrest
    · exact .cons hs ih

theorem Done.keys (h : Done cut start l l') : l.map (·.key) = l'.map (·.key) := by
  unfold Done at h
  induction h with
  | nil => rfl
  | cons hs _ ih =>
    rw [List.map_cons, List.map_cons, ih, hs.eq_of_blind (f := ActiveStatus.key) fun _ => rfl]

theorem Done.sweep (h : Done cut start l l') (now : Timestamp) :
    Done cut start (l.filter (!·.isExpired now)) (l'.filter (!·.isExpired now)) := by
  refine List.rel_filter (fun s s' hs => ?_) h
  have hexpired : s'.isExpired now = s.isExpired now :=
    hs.eq_of_blind (f := fun s => s.isExpired now) fun _ => rfl
  show (!s.isExpired now) = true ↔ (!s'.isExpired now) = true
  rw [hexpired]

theorem Done.stamp (h : Done cut start l l') (now : Timestamp) (ids : List Nat) :
    Done cut start
      (l.map fun s => if s.id ∈ ids then { s with lastTick := some now } else s)
      (l'.map fun s => if s.id ∈ ids then { s with lastTick := some now } else s) := by
  refine List.rel_map (fun s s' hs => ?_) h
  have hid : s'.id = s.id := hs.eq_of_blind fun _ => rfl
  by_cases hmem : s.id ∈ ids
  · rw [if_pos hmem, if_pos (hid ▸ hmem)]
    exact hs.map (f := fun s => { s with lastTick := some now }) rfl rfl fun _ => rfl
  · rw [if_neg hmem, if_neg (hid ▸ hmem)]
    exact hs

end Relations

theorem blind_waiting (failed : List Trial) (start : Battle) :
    Blind fun key => Waiting (cutOf failed key) (start.statusesOf key) where
  keys h := by rw [h.lighter, keys_lighten]
  append h := h.append
  refresh h := h.refresh

theorem blind_done (failed : List Trial) (start : Battle) :
    Blind fun key => Done (cutOf failed key) (start.statusesOf key) where
  keys h := h.keys
  append h := h.append
  refresh h := h.refresh

/-- Some combatants' statuses may be related in one way and those of the others in another. -/
theorem Blind.split {V W : StatusRelation} (hV : Blind V) (hW : Blind W) (keys : List String) :
    Blind fun key l l' => if key ∈ keys then V key l l' else W key l l' where
  keys h := by
    split at h
    · exact hV.keys h
    · exact hW.keys h
  append h s := by
    split at h
    · next hkey =>
      rw [if_pos hkey]
      exact hV.append h s
    · next hkey =>
      rw [if_neg hkey]
      exact hW.append h s
  refresh h status removal := by
    split at h
    · next hkey =>
      rw [if_pos hkey]
      exact hV.refresh h status removal
    · next hkey =>
      rw [if_neg hkey]
      exact hW.refresh h status removal

/-! ## Both updates -/

/-- How the statuses of combatants relate while those with keys in `keys` wait for their ticks. -/
def Eased (failed : List Trial) (start : Battle) (keys : List String) : StatusRelation :=
  fun key l l' =>
    if key ∈ keys then Waiting (cutOf failed key) (start.statusesOf key) l l'
    else Done (cutOf failed key) (start.statusesOf key) l l'

theorem blind_eased (failed : List Trial) (start : Battle) (keys : List String) :
    Blind (Eased failed start keys) :=
  (blind_waiting failed start).split (blind_done failed start) keys

section Easing

variable {failed : List Trial} {start : Battle} {key other : String} {keys : List String}
  {l l' : List ActiveStatus}

theorem eased_of_mem (h : key ∈ keys) :
    Eased failed start keys key l l' ↔
      Waiting (cutOf failed key) (start.statusesOf key) l l' := by
  unfold Eased
  rw [if_pos h]

theorem eased_of_not_mem (h : key ∉ keys) :
    Eased failed start keys key l l' ↔ Done (cutOf failed key) (start.statusesOf key) l l' := by
  unfold Eased
  rw [if_neg h]

theorem Eased.of_cons (ho : other ≠ key) (h : Eased failed start (key :: keys) other l l') :
    Eased failed start keys other l l' := by
  unfold Eased at h ⊢
  simpa only [List.mem_cons, ho, false_or] using h

end Easing

section Updates

variable {V : StatusRelation} {S : Settings} {d : Nat} {r : Resolver} {b c : Battle}

/-- **Jobs.** Where jobs that are left out are harmless, doing the others is as good as doing all of
them. -/
theorem alike_work {key : String} {js js' : List Job} {cut : Nat → Nat → Bool}
    (hr : d < S.reentryLimit → ∀ e, Simulates (Alike V S (d + 1)) (r e) (r e))
    (harmless : ∀ t ∈ trialsOf r key js b, cut t.job.place t.job.part = true → t.Harmless r)
    (htasks : (js.filter fun j => !cut j.place j.part).map Job.task = js'.map Job.task)
    (h : Alike V S d b c) : Alike V S d (work r key js b).2 (work r key js' c).2 := by
  induction js generalizing js' b c with
  | nil =>
    obtain rfl : js' = [] := List.map_eq_nil_iff.1 htasks.symm
    exact h
  | cons j js ih =>
    have hwork (j : Job) (js : List Job) (b : Battle) :
        (work r key (j :: js) b).2 = (work r key js (after (j.perform r key) b)).2 := by
      rw [← snd_attempt]
      rfl
    rw [trialsOf_cons] at harmless
    have hrest := fun t ht => harmless t (List.mem_cons_of_mem _ ht)
    rw [hwork]
    by_cases hcut : cut j.place j.part = true
    · have hj : after (j.perform r key) b = b := harmless _ List.mem_cons_self hcut
      rw [hj] at hrest ⊢
      refine ih hrest ?_ h
      rwa [List.filter_cons_of_neg (by simp [hcut])] at htasks
    · rw [List.filter_cons_of_pos (by simp [hcut]), List.map_cons] at htasks
      obtain ⟨j', rest, rfl, htask, htasks⟩ := List.map_eq_cons_iff.1 htasks.symm
      rw [hwork, perform_congr htask]
      exact ih hrest htasks.symm ((simulates_perform_job hr key j).after h)

theorem eq_of_mem_tickTrials {key : String} {t u : Trial} (ht : t ∈ tickTrials r key b)
    (hu : u ∈ tickTrials r key b) (hplace : t.job.place = u.job.place)
    (hpart : t.job.part = u.job.part) : t = u := by
  unfold tickTrials at ht hu
  cases hx : b.combatant? key with
  | none => rw [hx] at ht; cases ht
  | some x =>
    rw [hx] at ht hu
    have hjob := eq_of_mem_jobs (of_mem_trialsOf ht).2 (of_mem_trialsOf hu).2 hplace hpart
    exact eq_of_mem_trialsOf (jobs_nodup ..) ht hu hjob

variable {failed : List Trial} {start : Battle} {key : String} {keys : List String}

/-- **Ticks.** A combatant that waited for its tick is done after it. -/
theorem alike_tick (hkey : key ∉ keys)
    (hr : d < S.reentryLimit →
      ∀ e, Simulates (Alike (Eased failed start keys) S (d + 1)) (r e) (r e))
    (harmless : ∀ t ∈ tickTrials r key b, cutOf failed key t.job.place t.job.part = true →
      t.Harmless r)
    (h : Alike (Eased failed start (key :: keys)) S d b c) :
    Alike (Eased failed start keys) S d (tick r key b).2 (tick r key c).2 := by
  obtain ⟨hb, hc⟩ | ⟨x, y, hb, hc, hxy⟩ := h.cases_combatant? key
  · rw [tick_of_absent r key hb, tick_of_absent r key hc]
    refine h.mono fun other x y hx _ hl => hl.of_cons ?_
    rintro rfl
    rw [hb] at hx
    cases hx
  · have hwaiting := (eased_of_mem List.mem_cons_self).1 hxy.statuses
    have hswept : Alike (Eased failed start keys) S d (b.alter key (sweep b.now))
        (c.alter key (sweep b.now)) := by
      refine h.alter_to (fun x y hxy => ⟨?_, ?_⟩) fun other ho l l' hl => hl.of_cons ho
      · rw [hxy.eq]
        rfl
      · have hwaiting := (eased_of_mem List.mem_cons_self).1 hxy.statuses
        exact (eased_of_not_mem hkey).2 (hwaiting.done.sweep b.now)
    unfold tickTrials at harmless
    rw [hb] at harmless
    obtain ⟨cut, hcut, hlighter⟩ : ∃ cut : Nat → Nat → Bool,
        (∀ place part, cut place part = true → cutOf failed key place part = true) ∧
          y.statuses = lighten cut x.statuses :=
      ⟨_, fun _ _ h => (Bool.and_eq_true_iff.1 h).2, hwaiting.lighter⟩
    rw [tick_eq r key hb, tick_eq r key hc, h.now_eq, hlighter, runIds_lighten]
    have hworked := alike_work hr (fun t ht h => harmless t ht (hcut _ _ h))
      (task_jobs_lighten x.statuses cut) hswept
    refine hworked.alter fun x y hxy => ⟨?_, ?_⟩
    · rw [hxy.eq]
      rfl
    · have hdone := (eased_of_not_mem hkey).1 hxy.statuses
      exact (eased_of_not_mem hkey).2 (hdone.stamp b.now _)

/-- **Updates.** One tick after another. -/
theorem alike_ticks (hkeys : keys.Nodup)
    (hr : ∀ keys, d < S.reentryLimit →
      ∀ e, Simulates (Alike (Eased failed start keys) S (d + 1)) (r e) (r e))
    (harmless : ∀ t ∈ failed, t.Harmless r)
    (hfailed : ∀ t ∈ failed, t.key ∈ keys → t ∈ ticksTrials r keys b)
    (h : Alike (Eased failed start keys) S d b c) :
    Alike (Eased failed start []) S d (forEach keys (tick r) b).2 (forEach keys (tick r) c).2 := by
  induction keys generalizing b c with
  | nil => exact h
  | cons key keys ih =>
    obtain ⟨hkey, hnodup⟩ := List.nodup_cons.1 hkeys
    rw [forEach_cons, forEach_cons]
    refine ih hnodup (fun t ht hmem => ?_) (alike_tick hkey (hr keys) (fun u hu hcut => ?_) h)
    · rcases List.mem_append.1 (hfailed t ht (List.mem_cons_of_mem key hmem)) with htick | hticks
      · exact absurd (key_of_mem_tickTrials htick ▸ hmem) hkey
      · exact hticks
    · -- What is left out here is what fails here.
      obtain ⟨t, ht, hof⟩ := List.any_eq_true.1 hcut
      unfold Trial.isOf at hof
      simp only [Bool.and_eq_true, decide_eq_true_eq] at hof
      obtain ⟨⟨rfl, hplace⟩, hpart⟩ := hof
      rcases List.mem_append.1 (hfailed t ht List.mem_cons_self) with htick | hticks
      · rw [← eq_of_mem_tickTrials htick hu hplace hpart]
        exact harmless t ht
      · exact absurd (key_of_mem_ticksTrials hticks) hkey

theorem mem_names {x : Combatant} (hx : b.combatant? key = some x) : key ∈ b.combatants.names :=
  List.mem_map.2 ⟨(key, x), Table.get?_eq_some_iff.1 hx, rfl⟩

/-- At the start everyone waits. -/
theorem alike_relieve (failed : List Trial) (b : Battle) :
    Alike (Eased failed b b.combatants.names) b.settings b.depth b (b.relieve failed) := by
  refine ⟨rfl, fun key => ?_, rfl, rfl⟩
  have hget : (b.relieve failed).combatant? key = (b.combatant? key).map fun c =>
      { c with statuses := lighten (cutOf failed key) c.statuses } := Table.get?_map ..
  rw [hget]
  cases hx : b.combatant? key with
  | none => exact .none
  | some x =>
    refine .some ⟨rfl, ?_⟩
    have hmem : key ∈ b.combatants.names := mem_names hx
    rw [eased_of_mem hmem, statusesOf_of_some hx]
    refine ⟨?_, List.prefix_rfl⟩
    unfold lighten
    refine List.mapIdx_eq_mapIdx_iff.2 fun i hi => ?_
    simp only [hi, decide_true, Bool.true_and]

theorem names_nodup (t : Table Combatant) : t.names.Nodup := by
  unfold Table.names
  refine List.pairwise_map.2 (t.sorted.imp fun hlt heq => ?_)
  rw [heq] at hlt
  exact String.lt_irrefl _ hlt

end Updates

theorem after_update (b : Battle) : after update b = (tickAll b.below b).2 := by
  show after (get >>= fun b => finish (tickAll b.below)) b = _
  rw [after_get_bind, after_finish]

/-- After an update every status is stamped that was due. -/
theorem stamped_update {b : Battle} (h : Numbered b) {key : String} {s s' : ActiveStatus}
    (hs : s ∈ b.statusesOf key) (hdue : s.isDue b.now = true)
    (hs' : s' ∈ (after update b).statusesOf key) (hid : s'.id = s.id) :
    s'.lastTick = some b.now := by
  obtain ⟨x, hx, -⟩ := mem_statusesOf.1 hs
  rw [after_update] at hs'
  refine stamped_ticks h (h.id_lt hs) (fun t ht htid => ?_) (absurd (mem_names hx)) s' hs' hid
  rw [h.eq_of_id ht hs htid]
  exact .inl hdue

/-- A status that raises strength, and would harm in a way that is not defined. -/
def curse : StatusEffect where
  key := "curse"
  stacking := .refresh
  maxStacks := none
  interval := .leaf (.number 1)
  components :=
    [.call ⟨"HARM", .exactly 4, .harm, [], [2]⟩
      [.leaf (.key "$TARGET"), .leaf (.key "$CASTER"), .leaf (.key "none"), .leaf (.number 1)],
     .call ⟨"MOD_VALUE", .exactly 2, .modifier, [], [0]⟩ [.leaf (.key "STR"), .leaf (.number 2)]]

/-- Someone with a curse on it. -/
def cursed : Battle :=
  { new .standard with
    combatants := Table.empty.insert "h"
      ⟨"H", .player, .empty, .empty, [⟨0, curse, "h", none, none, 1000, []⟩]⟩
    nextStatusId := 1 }

end Skirmish.Battle
