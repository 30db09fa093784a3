import Skirmish.Battle.Clock
import Skirmish.Formula.Texts

/-!
# Statuses

A status effect is what designers define; an active status is one that lies on a combatant. The
components of an effect are formulas: those that change stats and those that harm or heal take
effect at each tick.
-/

namespace Skirmish.Battle

open Skirmish.Formula

/-- What becomes of a status on someone who already has it. -/
inductive Stacking
  /-- its end is put off -/
  | refresh
  /-- nothing -/
  | none
  /-- another instance is added, up to a limit -/
  | independent
  deriving Repr, DecidableEq

namespace Stacking

/-- The word for a way of stacking. -/
def text : Stacking → String
  | refresh => "refresh"
  | none => "none"
  | independent => "independent"

/-- All ways of stacking. -/
def all : List Stacking := [refresh, none, independent]

/-- A character in lower case, if it is an ASCII letter. -/
def lower (c : Char) : Char := if 'A' ≤ c ∧ c ≤ 'Z' then Char.ofNat (c.toNat + 32) else c

/-- Reads the word for a way of stacking, in any mixture of cases. -/
def ofText? (text : String) : Option Stacking :=
  all.find? fun s => s.text.toList = text.toList.map lower

end Stacking

/-- A status effect as designers write it. -/
structure StatusDefinition where
  key : String
  stacking : Stacking
  maxStacks : Option String
  /-- seconds between ticks -/
  interval : String
  components : List String
  deriving Repr, DecidableEq

/-- A status effect. -/
structure StatusEffect where
  key : String
  stacking : Stacking
  /-- how many instances may be stacked; nothing or zero for no limit -/
  maxStacks : Option Expr
  interval : Expr
  components : List Expr

/-- Reads the formulas of a definition: the limit, the interval, then the components. -/
def StatusDefinition.compile (v : Vocabulary) (d : StatusDefinition) :
    Except ParseError StatusEffect := do
  let maxStacks ← d.maxStacks.mapM (Expr.parse v)
  let interval ← Expr.parse v d.interval
  let components ← d.components.mapM (Expr.parse v)
  return ⟨d.key, d.stacking, maxStacks, interval, components⟩

namespace StatusDefinition

/-- The formulas of a definition, in the order in which they are read. -/
def formulas (d : StatusDefinition) : List String :=
  d.maxStacks.toList ++ ([d.interval] ++ d.components)

/-- The effect is what the definition says, with every formula read. -/
structure Compiled (v : Vocabulary) (d : StatusDefinition) (e : StatusEffect) : Prop where
  key : e.key = d.key
  stacking : e.stacking = d.stacking
  maxStacks : d.maxStacks.map (Expr.parse v) = e.maxStacks.map .ok
  interval : Expr.parse v d.interval = .ok e.interval
  components : d.components.map (Expr.parse v) = e.components.map .ok

/-- The definition is compiled if all its formulas can be read, and else the first fault is its. -/
theorem compile_inOrder (v : Vocabulary) (d : StatusDefinition) :
    v.ReadsInOrder d.formulas (d.Compiled v) (d.compile v) :=
  (v.readsInOrder_option d.maxStacks).bind fun _ maxStacks =>
    (v.readsInOrder_parse d.interval).bind fun _ interval =>
      (v.readsInOrder_list d.components).map fun _ components =>
        ⟨rfl, rfl, maxStacks, interval, components⟩

theorem exists_compile_eq_ok_iff (v : Vocabulary) (d : StatusDefinition) :
    (∃ e, d.compile v = .ok e) ↔ ∀ text ∈ d.formulas, v.CanRead text :=
  (d.compile_inOrder v).exists_ok_iff

end StatusDefinition

/-- A status that lies on someone. -/
structure ActiveStatus where
  /-- how many applications there were before it, so no two statuses of a battle share it; a word of
  64 bits would do, as 2 ^ 64 applications are out of reach -/
  id : Nat
  effect : StatusEffect
  /-- who applied it; may be gone by now -/
  source : String
  /-- the time of its latest tick -/
  lastTick : Option Timestamp
  /-- the time of its end -/
  removal : Option Timestamp
  /-- milliseconds between ticks -/
  interval : Int64
  /-- the arguments it was applied with -/
  values : List Float

namespace ActiveStatus

/-- The name of the effect. -/
def key (s : ActiveStatus) : String := s.effect.key

/-- Whether its end has passed. -/
def isExpired (s : ActiveStatus) (now : Timestamp) : Bool :=
  s.removal.any (·.millis < now.millis)

/-- Whether it ticks now: it never has, or a whole interval has passed since. -/
def isDue (s : ActiveStatus) (now : Timestamp) : Bool :=
  s.lastTick.all fun last => s.interval ≤ now.since last

end ActiveStatus

end Skirmish.Battle
