/-!
# Time

Points in time, in whole milliseconds. Reckoning with them stops at the ends of the 64-bit range;
only a clock that is moved on by hand wraps around.
-/

namespace Skirmish.Battle

/-- A point in time. -/
structure Timestamp where
  millis : Int64
  deriving Repr, DecidableEq

namespace Timestamp

instance : Inhabited Timestamp := ⟨⟨0⟩⟩

/-- The time `ms` later, or the end of time. -/
def later (t : Timestamp) (ms : Int64) : Timestamp :=
  ⟨Int64.ofIntClamp (t.millis.toInt + ms.toInt)⟩

/-- Milliseconds since an earlier time, or the most that there can be. -/
def since (t earlier : Timestamp) : Int64 :=
  Int64.ofIntClamp (t.millis.toInt - earlier.millis.toInt)

/-- The clock moved on by `ms`, wrapping around. -/
def advance (t : Timestamp) (ms : Int64) : Timestamp := ⟨t.millis + ms⟩

/-- The step of a whole tick. -/
def tick : Int64 := 1000

/-- A time in words. -/
def text (t : Timestamp) : String := s!"{t.millis.toInt}ms"

end Timestamp

/-- A number of milliseconds cut to a whole one, within the 64-bit range; what is no number is
zero. -/
def wholeMillis (x : Float) : Int64 :=
  Int64.ofIntClamp (if x < 0 then -(x.abs.toUInt64.toNat : Int) else x.toUInt64.toNat)

/-- When something that lasts `duration` seconds from `now` ends. Only a positive, finite duration
ends at all. -/
def removalTime (now : Timestamp) (duration : Float) : Option Timestamp :=
  if duration > 0 && duration.isFinite then some (now.later (wholeMillis (duration * 1000)))
  else none

end Skirmish.Battle
