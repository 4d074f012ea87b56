import CommentSearch.Calendar
import CommentSearch.Yaml.Cursor

/-!
# Timestamps

A timestamp is a day, `YYYY-MM-DD`, or a day with a time: hours, minutes and seconds, a fraction of
a second, which counts for nothing here, and a zone. A month, a day or a part of the time outside
its range moves the moment on or back. Moments are counted in seconds from the start of 1970.
-/

namespace CommentSearch.Yaml.Timestamp

/-! ### Parts -/

/-- The number at the start of a text, of between `least` and `most` digits, and the text after
it. -/
def digits? (least most : Nat) (cs : List Char) : Option (Nat × List Char) :=
  let digits := cs.takeWhile Char.isDigit
  if least ≤ digits.length ∧ digits.length ≤ most then
    some (Decimal.digitsValue digits, cs.dropWhile Char.isDigit)
  else none

/-- The text after a mark. -/
def after? (mark : Char) : List Char → Option (List Char)
  | [] => none
  | c :: cs => if c = mark then some cs else none

/-- The number of a day. The years before 100 are those of the twentieth century. -/
def dayOf (year month day : Nat) : Int :=
  let fromJanuary : Int := month - 1
  dayNumber ((if year < 100 then 1900 + year else year) + fromJanuary / 12) (fromJanuary % 12 + 1)
    day

/-- The day at the start of a text, its month and day written with at least `least` digits, and the
text after it. -/
def day? (least : Nat) (cs : List Char) : Option (Int × List Char) := do
  let (year, cs) ← digits? 4 4 cs
  let (month, cs) ← digits? least 2 (← after? '-' cs)
  let (day, cs) ← digits? least 2 (← after? '-' cs)
  return (dayOf year month day, cs)

/-- The text after what divides the day from the time: the letter `T` or blanks. -/
def afterDay? : List Char → Option (List Char)
  | [] => none
  | c :: cs =>
    if c = 'T' ∨ c = 't' then some cs
    else if isSpace c then some (cs.dropWhile isSpace)
    else none

/-- The seconds of the day at the start of a text, and the text after them and their fraction. -/
def time? (cs : List Char) : Option (Int × List Char) := do
  let (hour, cs) ← digits? 1 2 cs
  let (minute, cs) ← digits? 2 2 (← after? ':' cs)
  let (second, cs) ← digits? 2 2 (← after? ':' cs)
  let rest := match cs with
    | '.' :: fraction => fraction.dropWhile Char.isDigit
    | cs => cs
  return (hour * 3600 + minute * 60 + second, rest)

/-- The minutes of an hour that a whole text spells after a colon; the empty text spells none. -/
def zoneMinutes? : List Char → Option Nat
  | [] => some 0
  | cs => do
    let (minute, rest) ← digits? 2 2 (← after? ':' cs)
    if rest.isEmpty then return minute else none

/-- The seconds that a zone, which the whole text spells, is ahead of universal time. -/
def zone? (cs : List Char) : Option Int :=
  match cs.dropWhile isSpace with
  | [] => if cs.isEmpty then some 0 else none
  | ['Z'] => some 0
  | sign :: offset => do
    if sign ≠ '+' ∧ sign ≠ '-' then none
    let (hour, rest) ← digits? 1 2 offset
    let ahead : Int := hour * 3600 + (← zoneMinutes? rest) * 60
    return if sign = '-' then -ahead else ahead

/-! ### Moments -/

/-- The moment that a day with a time spells. -/
def dayWithTime? (cs : List Char) : Option Int := do
  let (day, cs) ← day? 1 cs
  let (time, cs) ← time? (← afterDay? cs)
  return day * 86400 + time - (← zone? cs)

/-- The moment that a timestamp spells. -/
def moment? (cs : List Char) : Option Int :=
  match day? 2 cs with
  | some (day, []) => some (day * 86400)
  | _ => dayWithTime? cs

/-- The names of the days of the week, from the first day of 1970 on. -/
def weekdays : List String := ["Thu", "Fri", "Sat", "Sun", "Mon", "Tue", "Wed"]

/-- The names of the months. -/
def monthNames : List String :=
  ["Jan", "Feb", "Mar", "Apr", "May", "Jun", "Jul", "Aug", "Sep", "Oct", "Nov", "Dec"]

/-- A moment written out in full. -/
def text (moment : Int) : String :=
  let t := DateTime.ofSeconds moment
  let two := fun (n : Int) => String.ofList (padText 2 (intChars n))
  let weekday := weekdays.getD (moment / 86400 % 7).toNat ""
  let month := monthNames.getD (t.month - 1).toNat ""
  let year := String.ofList (padText 4 (intChars t.year))
  " ".intercalate
    [weekday, month, two t.day, year, ":".intercalate [two t.hour, two t.minute, two t.second],
      "GMT+0000 (Coordinated Universal Time)"]

end CommentSearch.Yaml.Timestamp
