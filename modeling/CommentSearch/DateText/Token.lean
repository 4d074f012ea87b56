import CommentSearch.Text.Blank

/-!
# Tokens of date texts

A date text is cut into runs of digits, words, single marks and blanks; a part in parentheses counts
as one meaningless token. Of a word only months, halves of the day, time zones and the mark `T`
between date and time are known.
-/

namespace CommentSearch.DateText

/-- What a word of a date text stands for. -/
inductive Word where
  /-- A month, counted from one. -/
  | month (m : Nat)
  /-- The hours that `am` or `pm` add. -/
  | halfDay (hours : Nat)
  /-- A time zone, by its hours ahead of universal time. -/
  | zone (hours : Int)
  /-- The mark between date and time. -/
  | timeMark
  | unknown
deriving DecidableEq

/-- A token of a date text. Of a number its count of digits matters too, of a word its length. -/
inductive Token where
  | number (value length : Nat)
  | word (w : Word) (length : Nat)
  | mark (c : Char)
  | blank
  | other
deriving DecidableEq

/-! ### Numbers and words -/

/-- The value of a run of digits: of its nine leading digits after any zeros. -/
def numberValue (digits : List Char) : Nat :=
  Nat.ofDigitChars 10 ((digits.dropWhile (· = '0')).take 9) 0

/-- The months, by the first three letters of their names. -/
def months : List String :=
  ["jan", "feb", "mar", "apr", "may", "jun", "jul", "aug", "sep", "oct", "nov", "dec"]

/-- The known words of at most three letters besides the months. -/
def shortWords : List (String × Word) :=
  [("am", .halfDay 0), ("pm", .halfDay 12), ("ut", .zone 0), ("utc", .zone 0), ("z", .zone 0),
    ("gmt", .zone 0), ("cdt", .zone (-5)), ("cst", .zone (-6)), ("edt", .zone (-4)),
    ("est", .zone (-5)), ("mdt", .zone (-6)), ("mst", .zone (-7)), ("pdt", .zone (-7)),
    ("pst", .zone (-8)), ("t", .timeMark)]

/-- What a word stands for. A month may be written longer than three letters, any way it goes
on. -/
def wordOf (letters : List Char) : Word :=
  let start := String.ofList ((letters.take 3).map Char.toLower)
  match months.findIdx? (· = start) with
  | some i => .month (i + 1)
  | none => if letters.length ≤ 3 then (shortWords.lookup start).getD .unknown else .unknown

/-! ### Cutting into tokens -/

/-- The run of characters being read: digits or letters, last first, or a part in parentheses with
the number of open ones. -/
inductive Run where
  | nothing
  | digits (ds : List Char)
  | letters (cs : List Char)
  | aside (depth : Nat)

/-- Whether a character belongs to a word: every one from the capital letters on that is not
blank. -/
def isLetter (c : Char) : Bool := 65 ≤ c.toNat && !Text.isBlank c

/-- The run with one more character, if the character belongs to it. -/
def Run.extend? : Run → Char → Option Run
  | nothing, _ => none
  | digits ds, c => if c.isDigit then some (digits (c :: ds)) else none
  | letters cs, c => if isLetter c then some (letters (c :: cs)) else none
  | aside depth, c =>
    if c = '(' then some (aside (depth + 1))
    else if c = ')' then some (if depth ≤ 1 then nothing else aside (depth - 1))
    else some (aside depth)

/-- The token of a run that is complete. -/
def Run.token? : Run → Option Token
  | digits ds => some (.number (numberValue ds.reverse) ds.length)
  | letters cs => some (.word (wordOf cs.reverse) cs.length)
  | nothing | aside _ => none

/-- The token that a character is of itself, and the run that it opens. -/
def opening (c : Char) : Option Token × Run :=
  if c.isDigit then (none, .digits [c])
  else if c = ':' ∨ c = '-' ∨ c = '+' ∨ c = '.' ∨ c = ')' then (some (.mark c), .nothing)
  else if isLetter c then (none, .letters [c])
  else if Text.isBlank c then (some .blank, .nothing)
  else if c = '(' then (some .other, .aside 1)
  else (some .other, .nothing)

/-- The tokens of a text after a run that is being read. -/
def tokensAfter : Run → List Char → List Token
  | run, [] => run.token?.toList
  | run, c :: cs =>
    match run.extend? c with
    | some run => tokensAfter run cs
    | none =>
      let (token?, next) := opening c
      run.token?.toList ++ token?.toList ++ tokensAfter next cs

/-- The tokens of a text, which ends before its first null character. -/
def tokens (s : String) : List Token :=
  tokensAfter .nothing (s.toList.takeWhile (· != '\x00'))

end CommentSearch.DateText
