import CommentSearch.Calendar
import CommentSearch.DateText.Token

/-!
# Drafts of dates

What the reading of a date text has gathered: the numbers of the day and of the time in the order
in which they stand, and the parts of the time zone. `Draft.instant?` settles which number is which
and gives the instant meant, in the local time zone where the text names no other.
-/

namespace CommentSearch.DateText

/-- The parts of a date gathered from a text. -/
structure Draft where
  /-- The numbers of the day, at most three. -/
  dayParts : List Int := []
  /-- The month, where a name gives it. -/
  monthName : Option Nat := none
  /-- Whether the day parts are known to be year, month and day. -/
  yearFirst : Bool := false
  /-- Hour, minute, second and milliseconds, as far as they are given. -/
  clock : List Nat := []
  /-- The hours that `am` or `pm` add. -/
  halfDay : Option Nat := none
  /-- Whether the time zone lies behind universal time. -/
  zoneBehind : Option Bool := none
  zoneHours : Option Nat := none
  zoneMinutes : Option Nat := none
deriving DecidableEq

namespace Draft

/-! ### Gathering -/

/-- One more number of the day, if there are less than three. -/
def addDayPart? (d : Draft) (n : Int) : Option Draft :=
  if d.dayParts.length < 3 then some { d with dayParts := d.dayParts ++ [n] } else none

/-- One more number of the time, if there are less than four. -/
def addTimePart? (d : Draft) (n : Nat) : Option Draft :=
  if d.clock.length < 4 then some { d with clock := d.clock ++ [n] } else none

/-- The last number of the time; what would follow it is zero. -/
def endTime (d : Draft) (n : Nat) : Draft :=
  { d with clock := (d.clock ++ [n, 0, 0, 0]).take 4 }

/-- Whether a number fits as the next one of a time that has begun. -/
def expectsTimePart (d : Draft) (n : Nat) : Bool :=
  match d.clock.length with
  | 1 | 2 => n ≤ 59
  | 3 => n ≤ 999
  | _ => false

/-- Whether a number fits as the minutes of a time zone whose hours are given. -/
def expectsZoneMinutes (d : Draft) (n : Nat) : Bool :=
  d.zoneHours.isSome && d.zoneMinutes.isNone && n ≤ 59

/-- The draft in a named time zone. -/
def inZone (d : Draft) (hours : Int) : Draft :=
  { d with zoneBehind := some (hours < 0), zoneHours := some hours.natAbs, zoneMinutes := some 0 }

/-- Whether the draft is in universal time, or a zone of no offset. -/
def isUniversal (d : Draft) : Bool := d.zoneHours = some 0 && d.zoneMinutes = some 0

/-! ### The instant meant -/

/-- Whether a number can be the day of a month. -/
def isDay (n : Int) : Bool := 1 ≤ n && n ≤ 31

/-- The full year that two digits stand for: 1950 to 2049. -/
def fullYear (year : Int) : Int :=
  if 0 ≤ year ∧ year ≤ 49 then year + 2000
  else if 50 ≤ year ∧ year ≤ 99 then year + 1900
  else year

/-- Year, month and day in the order in which the day parts give them, one standing for each that is
missing. Without a month name a first part that can be no day is the year, else the order is month,
day and year. -/
def yearMonthDay (d : Draft) : Int × Int × Int :=
  let first := d.dayParts.getD 0 1
  let second := d.dayParts.getD 1 1
  let third := d.dayParts.getD 2 1
  match d.monthName with
  | none => if d.yearFirst || !isDay first then (first, second, third) else (third, first, second)
  | some m => if isDay first then (second, m, first) else (first, m, second)

/-- The days from the start of 1970, if the date has parts in range. The day is not measured
against its month. -/
def days? (d : Draft) : Option Int :=
  let (year, month, day) := d.yearMonthDay
  let year := if d.yearFirst then year else fullYear year
  if d.dayParts.isEmpty || !(1 ≤ month && month ≤ 12) || !isDay day then none
  else some (dayNumber year month day)

/-- The hour of a clock that can be one of twelve hours. -/
def hour? (d : Draft) : Option Nat :=
  let hour := d.clock.getD 0 0
  match d.halfDay with
  | none => some hour
  | some added => if hour ≤ 12 then some (hour % 12 + added) else none

/-- The milliseconds from the start of the day, if the time has parts in range. The end of the day
may be written as its hour 24. -/
def timeOfDay? (d : Draft) : Option Int := do
  let hour ← d.hour?
  let minute := d.clock.getD 1 0
  let second := d.clock.getD 2 0
  let milli := d.clock.getD 3 0
  if (hour ≤ 23 ∧ minute ≤ 59 ∧ second ≤ 59 ∧ milli ≤ 999) ∨
      (hour = 24 ∧ minute = 0 ∧ second = 0 ∧ milli = 0) then
    some ((((hour * 60 + minute) * 60 + second) * 1000 + milli : Nat) : Int)
  else none

/-- The milliseconds by which clocks that show an instant are ahead of universal time: those of the
zone that the draft gives, counted in seconds of 32 bits, or else those of the local zone. -/
def offset? (d : Draft) (zone : TimeZone) (shown : Int) : Option Int :=
  match d.zoneBehind with
  | none => some (zone.ahead shown)
  | some behind =>
    let seconds : Nat := (d.zoneHours.getD 0 * 3600 + d.zoneMinutes.getD 0 * 60) % 4294967296
    if seconds < 2147483648 then some ((if behind then -(seconds : Int) else seconds) * 1000)
    else none

/-- The instant that a draft means in a local zone. -/
def instant? (d : Draft) (zone : TimeZone) : Option Int := do
  let days ← d.days?
  let time ← d.timeOfDay?
  let shown := days * 86400000 + time
  CommentSearch.instant? (shown - (← d.offset? zone shown))

end Draft

/-- The milliseconds that the digits after the point of a second stand for. -/
def milliseconds (value length : Nat) : Nat :=
  match length with
  | 1 => value * 100
  | 2 => value * 10
  | n => value / Nat.pow 10 (min n 9 - 3)

end CommentSearch.DateText
