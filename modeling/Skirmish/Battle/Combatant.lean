import Skirmish.Battle.Status
import Skirmish.Table

/-!
# Combatants

Base stats last; derived stats are the base stats as the statuses on a combatant change them, and
start again from the base stats at each tick. A change to a stat that is missing starts at zero.
-/

namespace Skirmish.Battle

/-- The side a combatant fights on. -/
inductive Side
  | player
  | enemy
  deriving Repr, DecidableEq

namespace Side

/-- The word for a side. -/
def text : Side → String
  | player => "player"
  | enemy => "enemy"

/-- Reads the word for a side. -/
def ofText? (text : String) : Option Side := [player, enemy].find? (·.text = text)

end Side

/-- Named numbers. -/
abbrev Stats := Table Float

/-- Adds to a stat. -/
def addToStat (stats : Stats) (stat : String) (delta : Float) : Stats :=
  stats.insert stat ((stats.get? stat).getD 0 + delta)

@[simp] theorem get?_addToStat (stats : Stats) (stat other : String) (delta : Float) :
    (addToStat stats stat delta).get? other =
      if stat = other then some ((stats.get? stat).getD 0 + delta) else stats.get? other :=
  Table.get?_insert stats stat other _

/-- A participant of a battle. -/
structure Combatant where
  name : String
  side : Side
  base : Stats
  derived : Stats
  statuses : List ActiveStatus

namespace Combatant

/-- A combatant with equal base and derived stats and no statuses. -/
def new (name : String) (side : Side) (stats : Stats) : Combatant := ⟨name, side, stats, stats, []⟩

/-- Whether the combatant is a player. -/
def isPlayer (c : Combatant) : Bool := c.side = .player

/-- The current value of a stat. -/
def stat? (c : Combatant) (stat : String) : Option Float := c.derived.get? stat

/-- The lasting value of a stat. -/
def baseStat? (c : Combatant) (stat : String) : Option Float := c.base.get? stat

/-- Whether there is a stat of that name, lasting or not. -/
def hasStat (c : Combatant) (stat : String) : Bool :=
  c.derived.contains stat || c.base.contains stat

/-- Sets the lasting and the current value of a stat. -/
def setBaseStat (c : Combatant) (stat : String) (value : Float) : Combatant :=
  { c with base := c.base.insert stat value, derived := c.derived.insert stat value }

/-- Sets stats in the order of their names. -/
def setBaseStats (c : Combatant) (stats : Stats) : Combatant :=
  stats.entries.foldl (fun c e => c.setBaseStat e.1 e.2) c

/-- Adds to the lasting and the current value of a stat. -/
def adjustPersistent (c : Combatant) (stat : String) (delta : Float) : Combatant :=
  { c with base := addToStat c.base stat delta, derived := addToStat c.derived stat delta }

/-- Adds to the current value of a stat. -/
def adjustDerived (c : Combatant) (stat : String) (delta : Float) : Combatant :=
  { c with derived := addToStat c.derived stat delta }

/-- Lets the derived stats start again from the base stats. -/
def resetDerived (c : Combatant) : Combatant := { c with derived := c.base }

/-- Forgets the lasting value of a stat. -/
def dropBaseStat (c : Combatant) (stat : String) : Combatant :=
  { c with base := c.base.erase stat }

/-- Number of instances of a status. -/
def statusCount (c : Combatant) (key : String) : Nat := c.statuses.countP (·.key = key)

/-- The first instance of a status. -/
def status? (c : Combatant) (key : String) : Option ActiveStatus :=
  c.statuses.find? (·.key = key)

/-- Whether there is an instance of a status. -/
def hasStatus (c : Combatant) (key : String) : Bool := c.statuses.any (·.key = key)

/-! ## What a change is seen at -/

@[simp] theorem stat?_setBaseStat (c : Combatant) (stat other : String) (value : Float) :
    (c.setBaseStat stat value).stat? other = if stat = other then some value else c.stat? other :=
  Table.get?_insert c.derived stat other value

@[simp] theorem baseStat?_setBaseStat (c : Combatant) (stat other : String) (value : Float) :
    (c.setBaseStat stat value).baseStat? other =
      if stat = other then some value else c.baseStat? other :=
  Table.get?_insert c.base stat other value

@[simp] theorem stat?_adjustPersistent (c : Combatant) (stat other : String) (delta : Float) :
    (c.adjustPersistent stat delta).stat? other =
      if stat = other then some ((c.stat? stat).getD 0 + delta) else c.stat? other :=
  get?_addToStat c.derived stat other delta

@[simp] theorem baseStat?_adjustPersistent (c : Combatant) (stat other : String) (delta : Float) :
    (c.adjustPersistent stat delta).baseStat? other =
      if stat = other then some ((c.baseStat? stat).getD 0 + delta) else c.baseStat? other :=
  get?_addToStat c.base stat other delta

@[simp] theorem stat?_adjustDerived (c : Combatant) (stat other : String) (delta : Float) :
    (c.adjustDerived stat delta).stat? other =
      if stat = other then some ((c.stat? stat).getD 0 + delta) else c.stat? other :=
  get?_addToStat c.derived stat other delta

@[simp] theorem baseStat?_adjustDerived (c : Combatant) (stat other : String) (delta : Float) :
    (c.adjustDerived stat delta).baseStat? other = c.baseStat? other := rfl

@[simp] theorem stat?_resetDerived (c : Combatant) (stat : String) :
    c.resetDerived.stat? stat = c.baseStat? stat := rfl

end Combatant

end Skirmish.Battle
