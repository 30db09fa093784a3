import Skirmish.Content.Reader

/-!
# Dates and times in TOML

A date has four digits for the year and two each for the month and for a day that the month has. A
time of day may leave out the seconds and what follows them. A date with a time may end with the
difference to universal time.
-/

namespace Skirmish.Content.Toml

open Reader

/-- Whether a year has a 29th of February. -/
def isLeap (year : Nat) : Bool := year % 4 = 0 && (year % 100 ≠ 0 || year % 400 = 0)

/-- How many days a month has. -/
def daysIn (year month : Nat) : Nat :=
  if month = 2 then (if isLeap year then 29 else 28)
  else if month ∈ [4, 6, 9, 11] then 30
  else 31

/-- A number of `n` digits from `low` to `high`. -/
def field (n low high : Nat) : Reader Nat := do
  let x := ofDigits 10 (← exactly n Char.isDigit)
  if low ≤ x ∧ x ≤ high then return x else failure

/-- A date. -/
def date : Reader Unit := do
  let year ← field 4 0 9999
  char '-'
  let month ← field 2 1 12
  char '-'
  discard (field 2 1 (daysIn year month))

/-- The seconds of a time, with a fraction or without. -/
def seconds : Reader Unit := do
  char ':'
  discard (field 2 0 60)
  discard (present do char '.'; discard (run1 Char.isDigit))

/-- A time of day. -/
def timeOfDay : Reader Unit := do
  discard (field 2 0 23)
  char ':'
  discard (field 2 0 59)
  discard (present seconds)

/-- The difference to universal time. -/
def offset : Reader Unit :=
  discard (satisfy fun c => c = 'Z' || c = 'z') <|> do
    discard (satisfy fun c => c = '+' || c = '-')
    discard (field 2 0 23)
    char ':'
    discard (field 2 0 59)

/-- A date, a time, or both, the latter with an offset or without. -/
def momentReader : Reader Unit :=
  (do
    date
    discard (present do
      discard (satisfy fun c => c = 'T' || c = 't' || c = ' ')
      timeOfDay
      discard (present offset))) <|> timeOfDay

end Skirmish.Content.Toml
