import CommentSearch.DateText.Draft

/-!
# Reading date texts

A date text is read by the ISO grammar first. Where that stops before the time of day, the free
grammar takes over with the rest of the tokens; after the mark `T` there is no way back. The free
grammar gathers numbers, names and signs in any order that makes sense.

A text that has the stored form already, or lacks only its seconds or its time, is not read at all:
its digits are taken as they stand.
-/

namespace CommentSearch.DateText

/-! ### The ISO grammar -/

/-- How far the ISO grammar gets. -/
inductive IsoReading where
  /-- The text is no date in any grammar. -/
  | invalid
  /-- The whole text is an ISO date. -/
  | complete (d : Draft)
  /-- The tokens are left to the free grammar. -/
  | partly (d : Draft) (rest : List Token)

/-- A number of two digits up to a limit, and the tokens after it. -/
def twoDigits? (limit : Nat) : List Token → Option (Nat × List Token)
  | .number n 2 :: ts => if n ≤ limit then some (n, ts) else none
  | _ => none

/-- The tokens after a mark. -/
def afterMark? (c : Char) : List Token → Option (List Token)
  | .mark m :: ts => if m = c then some ts else none
  | _ => none

/-- The seconds up to a limit and their fraction, where they follow, and the tokens after them. A
limit of zero also keeps the fraction at zero. -/
def isoSeconds? (limit : Nat) (d : Draft) (ts : List Token) : Option (Draft × List Token) :=
  match afterMark? ':' ts with
  | none => some (d, ts)
  | some ts => do
    let (second, ts) ← twoDigits? limit ts
    let d ← d.addTimePart? second
    match ts with
    | .mark '.' :: .number n length :: ts =>
      if limit = 0 ∧ n ≠ 0 then none
      else return (← d.addTimePart? (milliseconds n length), ts)
    | .mark '.' :: _ => none
    | ts => some (d, ts)

/-- The time zone at the end of a text: none, `Z`, or an offset in hours and minutes. -/
def isoZone? (d : Draft) : List Token → Option Draft
  | [] => some d
  | [.word (.zone _) 1] => some (d.inZone 0)
  | .mark sign :: ts =>
    if sign = '+' ∨ sign = '-' then
      let d := { d with zoneBehind := some (sign = '-') }
      match ts with
      | [.number n 4] =>
        if n / 100 ≤ 23 ∧ n % 100 ≤ 59 then
          some { d with zoneHours := some (n / 100), zoneMinutes := some (n % 100) }
        else none
      | [.number hours 2, .mark ':', .number minutes 2] =>
        if hours ≤ 23 ∧ minutes ≤ 59 then
          some { d with zoneHours := some hours, zoneMinutes := some minutes }
        else none
      | _ => none
    else none
  | _ => none

/-- The time of day after the mark between date and time. The hour 24 has nothing after it but
zeros. -/
def isoTime? (d : Draft) (ts : List Token) : Option Draft := do
  let (hour, ts) ← twoDigits? 24 ts
  let d ← d.addTimePart? hour
  let limit := if hour = 24 then 0 else 59
  let (minute, ts) ← twoDigits? limit (← afterMark? ':' ts)
  let d ← d.addTimePart? minute
  let (d, ts) ← isoSeconds? limit d ts
  isoZone? d ts

/-- The end of an ISO date: the end of the text or a time of day. A day without a time is one of
universal time. -/
def isoAfterDate (d : Draft) : List Token → IsoReading
  | [] => .complete { d.inZone 0 with yearFirst := true }
  | .word .timeMark _ :: ts =>
    match isoTime? d ts with
    | some d => .complete { d with yearFirst := true }
    | none => .invalid
  | ts => .partly d ts

/-- A part of the day in two digits, after a hyphen. -/
def isoPart (limit : Nat) (d : Draft) (ts : List Token)
    (next : Draft → List Token → IsoReading) : IsoReading :=
  match ts with
  | .mark '-' :: .number n 2 :: ts =>
    if 1 ≤ n ∧ n ≤ limit then next { d with dayParts := d.dayParts ++ [(n : Int)] } ts
    else .partly d (.number n 2 :: ts)
  | .mark '-' :: ts => .partly d ts
  | ts => isoAfterDate d ts

/-- The month and the day of an ISO date after its year. -/
def isoAfterYear (year : Int) (ts : List Token) : IsoReading :=
  isoPart 12 { dayParts := [year] } ts fun d ts => isoPart 31 d ts isoAfterDate

/-- A date in the ISO grammar: a year of four digits, or of six with a sign; a year zero has no
minus. -/
def iso : List Token → IsoReading
  | .mark '-' :: .number n 6 :: ts =>
    if n = 0 then .partly {} (.mark '-' :: ts) else isoAfterYear (-n) ts
  | .mark '+' :: .number n 6 :: ts => isoAfterYear n ts
  | .number n 4 :: ts => isoAfterYear n ts
  | ts => .partly {} ts

/-! ### The free grammar -/

/-- The tokens without a mark at their start. -/
def dropMark (c : Char) : List Token → List Token
  | .mark m :: ts => if m = c then ts else .mark m :: ts
  | ts => ts

/-- Whether the last part of a time may stand before these tokens. -/
def endsTime : List Token → Bool
  | [] | .blank :: _ | .word (.zone _) 1 :: _ => true
  | .mark c :: _ => c = '+' || c = '-'
  | _ => false

/-- A number of the free grammar, with the tokens after it that belong to it. -/
def freeNumber? (d : Draft) (n : Nat) (ts : List Token) : Option (Draft × List Token) :=
  match ts with
  | .mark ':' :: .mark ':' :: ts =>
    if d.clock.isEmpty then some ({ d with clock := [n, 0] }, ts) else none
  | .mark ':' :: ts => (d.addTimePart? n).map fun d => (d, dropMark '.' ts)
  | ts =>
    let rest := dropMark '.' ts
    if rest.length < ts.length ∧ d.expectsTimePart n then
      match rest, d.addTimePart? n with
      | .number m length :: ts, some d => some (d.endTime (milliseconds m length), ts)
      | _, _ => none
    else if d.expectsZoneMinutes n then some ({ d with zoneMinutes := some n }, rest)
    else if d.expectsTimePart n then
      if endsTime rest then some (d.endTime n, rest) else none
    else (d.addDayPart? n).map fun d => (d, dropMark '-' rest)

/-- A word of the free grammar, with the tokens after it that belong to it; `seen` tells whether
there has been a number before it. Before the first number an unknown word is passed over, unless
the number touches it. -/
def freeWord? (d : Draft) (seen : Bool) (w : Word) (ts : List Token) :
    Option (Draft × List Token) :=
  let unknown := match seen, ts with
    | true, _ => none
    | false, .number _ _ :: _ => none
    | false, ts => some (d, ts)
  match w with
  | .month m => some ({ d with monthName := some m }, dropMark '-' ts)
  | .halfDay hours =>
    if d.clock.isEmpty then unknown else some ({ d with halfDay := some hours }, ts)
  | .zone hours => if seen then some (d.inZone hours, ts) else unknown
  | _ => unknown

/-- The offset after a sign, with the tokens that belong to it: up to two digits are hours, three
or four hours and minutes; before a colon all digits are hours. -/
def freeOffset? (d : Draft) (behind : Bool) (ts : List Token) : Option (Draft × List Token) :=
  let d := { d with zoneBehind := some behind }
  let (n, length, ts) := match ts with
    | .number n length :: ts => (n, length, ts)
    | ts => (0, 0, ts)
  if ts.head? = some (.mark ':') then
    some ({ d with zoneHours := some n, zoneMinutes := none }, ts)
  else if length = 1 ∨ length = 2 then
    some ({ d with zoneHours := some n, zoneMinutes := some 0 }, ts)
  else if length = 3 ∨ length = 4 then
    some ({ d with zoneHours := some (n / 100), zoneMinutes := some (n % 100) }, ts)
  else none

/-- One step of the free grammar at a token: the draft and whether a number has been seen, with the
tokens left. -/
def freeStep? (d : Draft) (seen : Bool) (t : Token) (ts : List Token) :
    Option (Draft × Bool × List Token) :=
  match t with
  | .number n _ => (freeNumber? d n ts).map fun (d, ts) => (d, true, ts)
  | .word w _ => (freeWord? d seen w ts).map fun (d, ts) => (d, seen, ts)
  | .mark c =>
    if (c = '+' ∨ c = '-') ∧ (d.isUniversal ∨ !d.clock.isEmpty) then
      (freeOffset? d (c = '-') ts).map fun (d, ts) => (d, true, ts)
    else if (c = '+' ∨ c = '-' ∨ c = ')') ∧ seen then none
    else some (d, seen, ts)
  | .blank | .other => some (d, seen, ts)

/-- The draft that the free grammar gathers from at most `steps` tokens. -/
def freeFrom? : Nat → Draft → Bool → List Token → Option Draft
  | _, d, _, [] => some d
  | 0, _, _, _ :: _ => none
  | steps + 1, d, seen, t :: ts => do
    let (d, seen, ts) ← freeStep? d seen t ts
    freeFrom? steps d seen ts

/-- The draft that the free grammar gathers from tokens. -/
def free? (d : Draft) (ts : List Token) : Option Draft :=
  freeFrom? ts.length d (!d.dayParts.isEmpty) ts

/-- The instant that a text means in a local zone. -/
def instant? (zone : TimeZone) (s : String) : Option Int :=
  match iso (tokens s) with
  | .invalid => none
  | .complete d => d.instant? zone
  | .partly d ts => (free? d ts).bind (·.instant? zone)

/-! ### Texts in the stored form -/

/-- So many digits at the start of a text, and what follows them. -/
def digits? (n : Nat) (cs : List Char) : Option (List Char × List Char) :=
  let start := cs.take n
  if start.length = n ∧ start.all Char.isDigit then some (start, cs.drop n) else none

/-- Two digits after a separator, and what follows them. -/
def partAfter? (separator : Char) : List Char → Option (List Char × List Char)
  | c :: cs => if c = separator then digits? 2 cs else none
  | [] => none

/-- Year, month and day of a text that starts with them, and what follows. -/
def plainDay? (cs : List Char) : Option (List Char × List Char × List Char × List Char) := do
  let (year, cs) ← digits? 4 cs
  let (month, cs) ← partAfter? '-' cs
  let (day, cs) ← partAfter? '-' cs
  return (year, month, day, cs)

/-- Hour, minute and second of a text that has nothing else, the last two zeros where they are
missing. -/
def plainTime? : List Char → Option (List Char × List Char × List Char)
  | [] => some (['0', '0'], ['0', '0'], ['0', '0'])
  | c :: cs => do
    if c ≠ ' ' ∧ c ≠ 'T' then none
    let (hour, cs) ← digits? 2 cs
    let (minute, cs) ← partAfter? ':' cs
    match cs with
    | [] => some (hour, minute, ['0', '0'])
    | cs =>
      let (second, cs) ← partAfter? ':' cs
      if cs.isEmpty then some (hour, minute, second) else none

/-- The stored form of a text that gives its parts plainly; the digits are not measured against the
calendar. -/
def plain? (cs : List Char) : Option (List Char) := do
  let (year, month, day, cs) ← plainDay? cs
  let (hour, minute, second) ← plainTime? cs
  return storedChars year month day hour minute second

/-- The stored form of the date and time that a text means in a local zone, if it means one. -/
def stored? (s : String) (zone : TimeZone := .universal) : Option String :=
  match plain? (Text.trimChars s.toList) with
  | some cs => some (String.ofList cs)
  | none => (instant? zone s).map fun ms => storedForm (some ms)

/-! ### Texts of periods -/

/-- The digits of year, month and day of a text that is a year, a month or a day, the last two
where they are given. -/
def periodParts? (cs : List Char) :
    Option (List Char × Option (List Char) × Option (List Char)) := do
  let (year, cs) ← digits? 4 cs
  if cs.isEmpty then return (year, none, none)
  let (month, cs) ← partAfter? '-' cs
  if cs.isEmpty then return (year, some month, none)
  let (day, cs) ← partAfter? '-' cs
  if cs.isEmpty then return (year, some month, some day)
  none

end CommentSearch.DateText
