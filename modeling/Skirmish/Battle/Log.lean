/-!
# The combat log

A record of what happened to whom: damage that landed, damage that was dodged, and healing. A log
may also be one that nobody keeps.
-/

namespace Skirmish.Battle

/-- What becomes of damage on its way: how much of it lands, the difference to the raw amount,
which is negative after a critical hit, and whether it was one. -/
structure Outcome where
  amount : Float
  resisted : Float
  critical : Bool

/-- Something that happened. -/
inductive Event
  | damage (target source type : String) (outcome : Outcome)
  | dodge (target source type : String)
  | heal (target source : String) (amount : Float)

/-- A log: the events in order, or none kept. -/
inductive Log
  | discarded
  | kept (events : List Event)

namespace Log

/-- The events in order. -/
def events : Log → List Event
  | discarded => []
  | kept events => events

/-- Adds an event at the end. -/
def record : Log → Event → Log
  | discarded, _ => discarded
  | kept events, e => kept (events ++ [e])

@[simp] theorem events_record_kept (events : List Event) (e : Event) :
    ((kept events).record e).events = events ++ [e] := rfl

end Log

end Skirmish.Battle
