import CommentSearch.Parameter

/-!
# The calendar

Dates of the Gregorian calendar, extended over all years, and instants in milliseconds from the
start of 1970. Years are counted from March, so that the leap day is the last day of its year; 400
such years make 146097 days.

The stored form of a date and time is `YYYY-MM-DD HH:mm:ss`.
-/

namespace CommentSearch

/-! ### Days and dates -/

/-- The days of a year from March on that come before a month, counted from March as zero. -/
def daysBeforeMonth (fromMarch : Int) : Int := (153 * fromMarch + 2) / 5

/-- The days from the start of 1970 to a day of a month. Months are counted from one; the day may
lie outside the month. -/
def dayNumber (year month day : Int) : Int :=
  let year := if month ≤ 2 then year - 1 else year
  let ofCycle := year % 400
  year / 400 * 146097 + ofCycle * 365 + ofCycle / 4 - ofCycle / 100 +
    daysBeforeMonth ((month + 9) % 12) + day - 1 - 719468

/-- A date and time of day. -/
structure DateTime where
  year : Int
  month : Int
  day : Int
  hour : Int
  minute : Int
  second : Int
deriving DecidableEq

namespace DateTime

/-- The date and time of day so many seconds after the start of 1970. -/
def ofSeconds (seconds : Int) : DateTime :=
  let days := seconds / 86400 + 719468
  let ofDay := seconds % 86400
  let ofCycle := days % 146097
  let yearOfCycle := (ofCycle - ofCycle / 1460 + ofCycle / 36524 - ofCycle / 146096) / 365
  let ofYear := ofCycle - (365 * yearOfCycle + yearOfCycle / 4 - yearOfCycle / 100)
  let fromMarch := (5 * ofYear + 2) / 153
  { year := yearOfCycle + days / 146097 * 400 + (if fromMarch < 10 then 0 else 1)
    month := if fromMarch < 10 then fromMarch + 3 else fromMarch - 9
    day := ofYear - daysBeforeMonth fromMarch + 1
    hour := ofDay / 3600
    minute := ofDay / 60 % 60
    second := ofDay % 60 }

/-- The seconds from the start of 1970. -/
def toSeconds (t : DateTime) : Int :=
  dayNumber t.year t.month t.day * 86400 + t.hour * 3600 + t.minute * 60 + t.second

end DateTime

/-! ### The stored form -/

/-- A text filled up with zeros in front. -/
def padText (width : Nat) (cs : List Char) : List Char :=
  List.replicate (width - cs.length) '0' ++ cs

/-- The decimal text of an integer. -/
def intChars (n : Int) : List Char :=
  if n < 0 then '-' :: Nat.toDigits 10 n.natAbs else Nat.toDigits 10 n.natAbs

/-- The stored form put together from the texts of its parts. -/
def storedChars (year month day hour minute second : List Char) : List Char :=
  padText 4 year ++ '-' :: padText 2 month ++ '-' :: padText 2 day ++ ' ' ::
    padText 2 hour ++ ':' :: padText 2 minute ++ ':' :: padText 2 second

/-- The stored form of a date and time. -/
def DateTime.stored (t : DateTime) : String :=
  String.ofList <| storedChars (intChars t.year) (intChars t.month) (intChars t.day)
    (intChars t.hour) (intChars t.minute) (intChars t.second)

/-! ### Instants -/

/-- The last instant that can be expressed, in milliseconds; the first is its opposite. -/
def lastInstant : Int := 8640000000000000

/-- An instant in milliseconds, if it can be expressed. -/
def instant? (ms : Int) : Option Int :=
  if -lastInstant ≤ ms ∧ ms ≤ lastInstant then some ms else none

/-- The stored form of an instant. One that cannot be expressed has parts that are no numbers. -/
def storedForm : Option Int → String
  | some ms => (DateTime.ofSeconds (ms / 1000)).stored
  | none =>
    let part := Number.nan.toChars
    String.ofList (storedChars part part part part part part)

/-- The instant of a number of milliseconds, their fraction dropped. -/
def instantOf (ms : Number) : Option Int := ms.toInt?.bind instant?

/-! ### Time zones -/

/-- A time zone, by its clocks: when they show an instant, how many milliseconds they are ahead of
universal time. -/
structure TimeZone where
  ahead : Int → Int

/-- The zone whose clocks show universal time. -/
def TimeZone.universal : TimeZone := ⟨fun _ => 0⟩

/-! ### Periods -/

/-- The instant at a second of a day. Months are counted from zero; a month or a day outside its
range moves the date on or back. The year and the month are bounded, the instant has to be one that
can be expressed. -/
def instantAt (year month day : Number) (secondOfDay : Int) : Option Int := do
  let year ← year.toInt?
  let month ← month.toInt?
  let day ← day.toInt?
  if year.natAbs ≤ 1000000 ∧ month.natAbs ≤ 10000000 then
    let days := dayNumber (year + month / 12) (month % 12 + 1) day
    instant? ((days * 86400 + secondOfDay) * 1000)
  else none

/-- A period from its first second to its last. -/
structure Period where
  first : Option Int
  last : Option Int
deriving DecidableEq

/-- The last second of a day. -/
def lastSecond : Int := 86399

/-- The year, the month of a year, or the day of a month that loosely typed parts name. Without a
month the day counts in January. -/
def Period.ofParts (year month day : Param) : Period :=
  let y := year.toInt
  let m := if month.isEmpty then .finite 0 else month.toInt.add (.finite (-1))
  if !day.isEmpty then
    ⟨instantAt y m day.toInt 0, instantAt y m day.toInt lastSecond⟩
  else if !month.isEmpty then
    ⟨instantAt y m (.finite 1) 0, instantAt y (m.add (.finite 1)) (.finite 0) lastSecond⟩
  else
    ⟨instantAt y m (.finite 1) 0, instantAt y (.finite 11) (.finite 31) lastSecond⟩

end CommentSearch
