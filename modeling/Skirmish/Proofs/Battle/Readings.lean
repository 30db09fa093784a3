import Skirmish.Proofs.Battle.Binding
import Skirmish.Proofs.Battle.Course
import Skirmish.Proofs.Formula.Inspection

/-!
# Readings of bare stats

A bare stat is bound if the combatant has it, lasting or not, and then its current value is read.

1. `Reached.mirrored`: every lasting stat has a current value, whatever happens to a battle.
2. `Evolves.sustains`: no current value is lost by what formulas do.
3. `bare_stats_read`: so a reading that a binding puts in finds its stat.
-/

namespace Skirmish.Battle

open Skirmish.Formula

/-! ## Lasting and current values -/

/-- Every lasting stat has a current value. -/
def Combatant.Mirrored (x : Combatant) : Prop :=
  ∀ stat, (x.baseStat? stat).isSome = true → (x.stat? stat).isSome = true

/-- Every lasting stat of everyone has a current value. -/
def Mirrored (b : Battle) : Prop := ∀ key x, b.combatant? key = some x → x.Mirrored

/-- No current value is lost, and no lasting one is new without a current one. -/
structure Combatant.Sustains (x y : Combatant) : Prop where
  current : ∀ stat, (x.stat? stat).isSome = true → (y.stat? stat).isSome = true
  lasting : ∀ stat, (y.baseStat? stat).isSome = true →
    (x.baseStat? stat).isSome = true ∨ (y.stat? stat).isSome = true

namespace Combatant

variable {x y z : Combatant}

theorem Sustains.refl (x : Combatant) : x.Sustains x := ⟨fun _ => id, fun _ => .inl⟩

theorem Sustains.trans (h : x.Sustains y) (k : y.Sustains z) : x.Sustains z where
  current stat hs := k.current stat (h.current stat hs)
  lasting stat hs := by
    rcases k.lasting stat hs with hs | hs
    · exact (h.lasting stat hs).imp_right (k.current stat)
    · exact .inr hs

theorem Sustains.mirrored (h : x.Sustains y) (hx : x.Mirrored) : y.Mirrored := fun stat hs =>
  (h.lasting stat hs).elim (fun hs => h.current stat (hx stat hs)) id

/-- A value that is put in place of another, or of none. -/
theorem isSome_of_set {c : Prop} [Decidable c] {value : Float} {old : Option Float}
    (h : old.isSome = true) : (if c then some value else old).isSome = true := by
  split
  · rfl
  · exact h

theorem sustains_adjustDerived (x : Combatant) (stat : String) (delta : Float) :
    x.Sustains (x.adjustDerived stat delta) where
  current other hs := by
    rw [stat?_adjustDerived]
    exact isSome_of_set hs
  lasting _ := .inl

theorem sustains_adjustPersistent (x : Combatant) (stat : String) (delta : Float) :
    x.Sustains (x.adjustPersistent stat delta) where
  current other hs := by
    rw [stat?_adjustPersistent]
    exact isSome_of_set hs
  lasting other hs := by
    rw [baseStat?_adjustPersistent] at hs
    rw [stat?_adjustPersistent]
    split at hs
    · next heq => exact .inr (if_pos heq ▸ rfl)
    · exact .inl hs

theorem sustains_setBaseStat (x : Combatant) (stat : String) (value : Float) :
    x.Sustains (x.setBaseStat stat value) where
  current other hs := by
    rw [stat?_setBaseStat]
    exact isSome_of_set hs
  lasting other hs := by
    rw [baseStat?_setBaseStat] at hs
    rw [stat?_setBaseStat]
    split at hs
    · next heq => exact .inr (if_pos heq ▸ rfl)
    · exact .inl hs

theorem sustains_dropBaseStat (x : Combatant) (stat : String) :
    x.Sustains (x.dropBaseStat stat) where
  current _ := id
  lasting other hs := by
    have hbase : (x.dropBaseStat stat).baseStat? other =
        if stat = other then none else x.baseStat? other := Table.get?_erase ..
    rw [hbase] at hs
    split at hs
    · cases hs
    · exact .inl hs

theorem sustains_statuses (x : Combatant) (statuses : List ActiveStatus) :
    x.Sustains { x with statuses } := ⟨fun _ => id, fun _ => .inl⟩

/-- After the derived stats started again, there is no difference. -/
theorem mirrored_resetDerived (x : Combatant) : x.resetDerived.Mirrored := fun _ => id

end Combatant

/-! ## What formulas and ticks do -/

section Changes

variable {silent : Bool} {b c : Battle}

/-- Of each combatant the current values are retained, and they are those who were there. -/
def Sustains (b c : Battle) : Prop :=
  ∀ key, Option.Rel Combatant.Sustains (b.combatant? key) (c.combatant? key)

theorem Sustains.refl (b : Battle) : Sustains b b := fun _ => rel_of_eq rfl Combatant.Sustains.refl

theorem Sustains.trans {d : Battle} (h : Sustains b c) (k : Sustains c d) : Sustains b d :=
  fun key => rel_trans (fun hxy hyz => hxy.trans hyz) (h key) (k key)

theorem Sustains.mirrored (h : Sustains b c) (hb : b.Mirrored) : c.Mirrored := by
  intro key y hy
  cases hx : b.combatant? key with
  | none =>
    have hnone := h key
    rw [hx, hy] at hnone
    cases hnone
  | some x =>
    obtain ⟨z, hz, hsustains⟩ := exists_of_rel (h key) hx
    obtain rfl : y = z := Option.some.inj (hy.symm.trans hz)
    exact hsustains.mirrored (hb key x hx)

theorem sustains_alter (b : Battle) (key : String) {f : Combatant → Combatant}
    (hf : ∀ x : Combatant, x.Sustains (f x)) : Sustains b (b.alter key f) := by
  intro other
  rw [combatant?_alter]
  split
  · exact rel_of_eq_map rfl hf
  · exact rel_of_eq rfl Combatant.Sustains.refl

theorem sustains_undergo (b : Battle) (e : Event) (logged : Bool) :
    Sustains b (b.undergo e logged) := by
  intro key
  refine rel_of_eq_map (combatant?_undergo b e logged key) fun x => ?_
  split
  · exact x.sustains_adjustPersistent ..
  · exact .refl x

/-- What formulas do loses no current value. -/
theorem Evolves.sustains (h : Evolves silent b c) : Sustains b c := by
  induction h with
  | refl b => exact .refl b
  | trans _ _ ih ih' => exact ih.trans ih'
  | roll b => exact .refl b
  | event logged => exact sustains_undergo _ _ logged
  | nested _ _ ih => exact ih
  | refresh => exact sustains_alter _ _ fun x => x.sustains_statuses _
  | inflict _ _ _ _ _ _ _ _ ih =>
    exact ih.trans (sustains_alter _ _ fun x => x.sustains_statuses _)

theorem Mirrored.alter (hb : b.Mirrored) (key : String) {f : Combatant → Combatant}
    (hf : ∀ x : Combatant, x.Mirrored → (f x).Mirrored) : (b.alter key f).Mirrored := by
  intro other y hy
  rw [combatant?_alter] at hy
  split at hy
  · obtain ⟨x, hx, rfl⟩ := Option.map_eq_some_iff.1 hy
    exact hf x (hb other x hx)
  · exact hb other y hy

/-- Ticks lose current values only where they start again from the lasting ones. -/
theorem Proceeds.mirrored (h : Proceeds silent b c) (hb : b.Mirrored) : c.Mirrored := by
  induction h with
  | trans _ _ ih ih' => exact ih' (ih hb)
  | evolve h => exact h.sustains.mirrored hb
  | sweep b key => exact hb.alter key fun x _ => Combatant.mirrored_resetDerived _
  | modify b key stat amount => exact hb.alter key fun x => (x.sustains_adjustDerived ..).mirrored
  | stamp b key => exact hb.alter key fun x => (x.sustains_statuses _).mirrored
  | cleanse b key => exact hb.alter key fun x _ => Combatant.mirrored_resetDerived _
  | clock => exact hb

end Changes

/-! ## Reaching a battle -/

/-- A change of a combatant from outside. -/
inductive Edit
  | setBaseStat (stat : String) (value : Float)
  | adjustPersistent (stat : String) (delta : Float)
  | adjustDerived (stat : String) (delta : Float)
  | resetDerived
  | dropBaseStat (stat : String)
  | setStatuses (statuses : List ActiveStatus)

/-- The combatant after a change. -/
def Edit.apply (x : Combatant) : Edit → Combatant
  | setBaseStat stat value => x.setBaseStat stat value
  | adjustPersistent stat delta => x.adjustPersistent stat delta
  | adjustDerived stat delta => x.adjustDerived stat delta
  | resetDerived => x.resetDerived
  | dropBaseStat stat => x.dropBaseStat stat
  | setStatuses statuses => { x with statuses }

/-- A combatant that was made and then changed. -/
inductive Combatant.Built : Combatant → Prop
  | new (name : String) (side : Side) (stats : Stats) : Built (.new name side stats)
  | edit {x : Combatant} (h : Built x) (e : Edit) : Built (e.apply x)

/-- Whoever enters was built. -/
def Command.Built : Command → Prop
  | insert _ x => x.Built
  | _ => True

/-- A battle that comes about from the outside, by operations that succeed or fail and by changes of
combatants, or within an operation, at whatever depth. -/
inductive Reached : Battle → Prop
  | new (settings : Settings) (vocabulary : Vocabulary) (now : Timestamp) (log : Log) :
      Reached (.new settings vocabulary now log)
  | equip {b : Battle} (h : Reached b) (vocabulary : Vocabulary) (now : Timestamp) (log : Log) :
      Reached { b with vocabulary, now, log }
  | command {b : Battle} (h : Reached b) {c : Command} (built : c.Built) : Reached (c.perform b)
  | edit {b : Battle} (h : Reached b) (key : String) (e : Edit) : Reached (b.alter key e.apply)
  | within {b c : Battle} (h : Reached b) (course : Proceeds true b c) (depth : Nat) :
      Reached { c with depth }

theorem Combatant.Mirrored.edit {x : Combatant} (hx : x.Mirrored) (e : Edit) :
    (e.apply x).Mirrored := by
  cases e with
  | setBaseStat stat value => exact (x.sustains_setBaseStat stat value).mirrored hx
  | adjustPersistent stat delta => exact (x.sustains_adjustPersistent stat delta).mirrored hx
  | adjustDerived stat delta => exact (x.sustains_adjustDerived stat delta).mirrored hx
  | resetDerived => exact x.mirrored_resetDerived
  | dropBaseStat stat => exact (x.sustains_dropBaseStat stat).mirrored hx
  | setStatuses statuses => exact (x.sustains_statuses statuses).mirrored hx

theorem Combatant.Built.mirrored {x : Combatant} (h : x.Built) : x.Mirrored := by
  induction h with
  | new => exact fun _ => id
  | edit _ e ih => exact ih.edit e

theorem Mirrored.after_insert {b : Battle} (hb : b.Mirrored) (key : String) {x : Combatant}
    (hx : x.Mirrored) : (after (Battle.insert key x) b).Mirrored := by
  rw [Battle.after_insert]
  split
  · exact hb
  · intro other y hy
    rw [combatant?_inserted] at hy
    split at hy
    · cases hy
      exact hx
    · exact hb other y hy

theorem Mirrored.perform {b : Battle} (hb : b.Mirrored) {c : Command} (h : c.Built) :
    (c.perform b).Mirrored := by
  cases c with
  | move m =>
    have hm : Proceeds true b (m.perform b) := proceeds_perform m (.inr rfl)
    exact hm.mirrored hb
  | insert key x => exact hb.after_insert key h.mirrored
  | add key name side => exact hb.after_insert key fun _ => id
  | remove key =>
    intro other y hy
    have hremove : (b.remove key).combatant? other = some y := hy
    rw [combatant?_remove] at hremove
    split at hremove
    · cases hremove
    · exact hb other y hremove
  | addDamageType | addEffect | addSkill => exact hb

/-- **Lasting stats.** Whatever happens, every lasting stat of everyone has a current value. -/
theorem Reached.mirrored {b : Battle} (h : Reached b) : b.Mirrored := by
  induction h with
  | new => exact nofun
  | equip _ _ _ _ ih => exact ih
  | command _ built ih => exact ih.perform built
  | edit _ key e ih => exact ih.alter key fun _ hx => hx.edit e
  | within _ course _ ih => exact course.mirrored ih

/-! ## Readings -/

section Readings

variable {b c : Battle} {entity : String}

/-- A stat that a combatant had in some sense is still there when formulas have acted. -/
theorem exists_stat_of_evolves {silent : Bool} (hb : b.Mirrored) (h : Evolves silent b c)
    {stat : String} (has : b.hasStat entity stat = true) :
    ∃ value, c.statOrFault entity stat = .ok value := by
  unfold hasStat at has
  cases hx : b.combatant? entity with
  | none =>
    rw [hx] at has
    cases has
  | some x =>
    rw [hx] at has
    have hcurrent : (x.stat? stat).isSome = true :=
      (Bool.or_eq_true_iff.1 has).elim id (hb entity x hx stat)
    obtain ⟨y, hy, hsustains⟩ := exists_of_rel (h.sustains entity) hx
    obtain ⟨value, hvalue⟩ := Option.isSome_iff_exists.1 (hsustains.current stat hcurrent)
    refine ⟨value, ?_⟩
    unfold statOrFault
    rw [hy]
    dsimp only
    rw [hvalue]

/-- With an alarm that goes off when a reading of a stat that the entity has now gives anything but
a number, and is not just nested too deep, the formula does the same. -/
def Legible (b : Battle) (entity : String) (e : Expr) : Prop :=
  ∀ alarm, e.resolveUnder
    (numbersOnly (Expr.isReading b.vocabulary (b.hasStat entity) entity) alarm)
    (world b.levels) b = b.here e b

theorem legible (hb : b.Mirrored) (standard : b.vocabulary.function? Vocabulary.statName =
    Vocabulary.standard.function? Vocabulary.statName) (entity : String) (e : Expr) :
    b.Legible entity e := by
  intro alarm
  have hw : (world b.levels).Keeps fun s t => Evolves false b s → Evolves false b t := by
    have hkeeps : (world b.levels).Keeps (At false b.levels) := keeps_world b.levels
    have hmono {s t : Battle} (hst : At false b.levels s t) (hs : Evolves false b s) :
        Evolves false b t := hs.trans (hst hs.frame.levels_eq)
    exact
      { harm := fun _ _ _ _ s => hmono (hkeeps.harm _ _ _ _ s)
        heal := fun _ _ _ s => hmono (hkeeps.heal _ _ _ s)
        cast := fun _ _ _ s => hmono (hkeeps.cast _ _ _ s)
        inflict := fun _ _ _ _ _ s => hmono (hkeeps.inflict _ _ _ _ _ s)
        roll := fun upper s => hmono (hkeeps.roll upper s) }
  refine resolveUnder_eq (discreet_numbersOnly fun e he c d hc => ?_) (World.follows_both hw) e
    (.refl b)
  obtain ⟨stat, has, rfl⟩ := Expr.eq_reading_of_isReading standard he
  obtain ⟨value, hvalue⟩ := exists_stat_of_evolves hb hc has
  have there : (world b.levels).stat c entity stat = .ok value := by
    cases b.levels <;> exact hvalue
  exact Expr.numeric_reading (faultsAbsent_world b.levels) there d

end Readings

/-- **Bare stats.** In every battle that can be reached, every lasting stat of everyone has a current
value. Let its vocabulary read stats as the standard one does. Then in every formula that is bound
for a skill, for mitigation or as a compound stat, each reading that stands for a bare stat gives a
number whenever it is evaluated, or is nested too deep, whatever the formula did before. -/
theorem bare_stats_read {b : Battle} (h : Reached b) :
    b.Mirrored ∧ (b.vocabulary.function? Vocabulary.statName =
      Vocabulary.standard.function? Vocabulary.statName → ∀ e : Expr,
        (∀ source target,
          b.Legible source (e.bindSkill b.vocabulary b.hasStat source target)) ∧
        (∀ target source amount,
          b.Legible target (e.bindMitigation b.vocabulary b.hasStat target source amount)) ∧
        ∀ entity, b.Legible entity (e.bindCompound b.vocabulary b.hasStat entity)) := by
  have hb : b.Mirrored := h.mirrored
  refine ⟨hb, fun standard e => ⟨fun source target => ?_, fun target source amount => ?_,
    fun entity => ?_⟩⟩
  · exact legible hb standard source _
  · exact legible hb standard target _
  · exact legible hb standard entity _

/-- Healing and then a bare stat, of a combatant that has lost its lasting value. -/
theorem bare_stats_read_heal :
    let array : Function := ⟨"ARRAY", .atLeast 0, .array, [], []⟩
    let heal : Function := ⟨"HEAL", .exactly 3, .heal, [], []⟩
    let e : Expr := .call array
      [.call heal [.leaf (.key "$TARGET"), .leaf (.key "$CASTER"), .leaf (.number 1)],
        .leaf (.key "CHP")]
    let bound : Expr := .call array
      [.call heal [.leaf (.key "h"), .leaf (.key "h"), .leaf (.number 1)], .reading "h" "CHP"]
    let edit : Edit := .dropBaseStat "CHP"
    let b := (run (new .standard) [.add "h" "H" .player]).alter "h" edit.apply
    Reached b ∧ b.Mirrored ∧ e.bindSkill b.vocabulary b.hasStat "h" "h" = bound ∧
      (Expr.reading "h" "CHP").isReading b.vocabulary (b.hasStat "h") "h" = true ∧
      b.Legible "h" bound := by
  intro array heal e bound edit b
  have hb : Reached b := .edit (.command (.new .standard .standard ⟨0⟩ .discarded)
    (c := .add "h" "H" .player) trivial) "h" edit
  obtain ⟨mirrored, legible⟩ := bare_stats_read hb
  have hbound : e.bindSkill b.vocabulary b.hasStat "h" "h" = bound := rfl
  exact ⟨hb, mirrored, hbound, by decide +kernel, hbound ▸ (legible rfl e).1 "h" "h"⟩

end Skirmish.Battle
