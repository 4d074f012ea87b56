import CommentSearch.Number.Literal
import CommentSearch.Value

/-!
# Values read from JSON text

A text is first cut into tokens, one character at a time, and the tokens are then put together, one
at a time, on a stack of open lists and objects. Both passes follow the data. Of several fields with
one key the last value counts, at the place of the first.
-/

namespace CommentSearch.Json

/-! ### Tokens -/

/-- A mark of punctuation, a text, or a word: a number or one of the three names. -/
inductive Token where
  | openList
  | closeList
  | openObject
  | closeObject
  | colon
  | comma
  | text (s : String)
  | word (chars : List Char)

/-- The part of a token read so far, its characters last first. A text is kept in the code units
of its escapes, a plain character as its code point. -/
inductive Scan where
  | between
  | word (chars : List Char)
  | text (units : List Nat)
  | escape (units : List Nat)
  | code (units : List Nat) (digits : Nat) (value : Nat)

/-- The blanks between tokens. -/
def isGap (c : Char) : Bool := c = ' ' || c = '\t' || c = '\n' || c = '\r'

/-- The mark of punctuation that a character is. -/
def mark? (c : Char) : Option Token :=
  match c with
  | '[' => some .openList
  | ']' => some .closeList
  | '\x7b' => some .openObject
  | '\x7d' => some .closeObject
  | ':' => some .colon
  | ',' => some .comma
  | _ => none

/-- The character that an escape of one letter stands for. -/
def escaped? (c : Char) : Option Char :=
  match c with
  | '"' => some '"'
  | '\\' => some '\\'
  | '/' => some '/'
  | 'b' => some '\x08'
  | 'f' => some '\x0c'
  | 'n' => some '\n'
  | 'r' => some '\r'
  | 't' => some '\t'
  | _ => none

/-- The characters of code units, a high and a low surrogate together making one. -/
def ofUnits : List Nat → List Char
  | [] => []
  | [u] => [Char.ofNat u]
  | u :: v :: units =>
    if 0xD800 ≤ u ∧ u < 0xDC00 ∧ 0xDC00 ≤ v ∧ v < 0xE000 then
      Char.ofNat (0x10000 + (u - 0xD800) * 0x400 + (v - 0xDC00)) :: ofUnits units
    else Char.ofNat u :: ofUnits (v :: units)

/-- The tokens of a text, given the part of a token already read. -/
def tokens : Scan → List Char → Option (List Token)
  | .between, [] => some []
  | .word w, [] => some [.word w.reverse]
  | _, [] => none
  | .between, c :: cs =>
    if isGap c then tokens .between cs
    else if c = '"' then tokens (.text []) cs
    else match mark? c with
      | some m => (tokens .between cs).map (m :: ·)
      | none => tokens (.word [c]) cs
  | .word w, c :: cs =>
    if isGap c then (tokens .between cs).map (.word w.reverse :: ·)
    else if c = '"' then none
    else match mark? c with
      | some m => (tokens .between cs).map fun ts => .word w.reverse :: m :: ts
      | none => tokens (.word (c :: w)) cs
  | .text us, c :: cs =>
    if c = '"' then (tokens .between cs).map (.text (String.ofList (ofUnits us.reverse)) :: ·)
    else if c = '\\' then tokens (.escape us) cs
    else if c.toNat < 0x20 then none
    else tokens (.text (c.toNat :: us)) cs
  | .escape us, c :: cs =>
    if c = 'u' then tokens (.code us 0 0) cs
    else match escaped? c with
      | some e => tokens (.text (e.toNat :: us)) cs
      | none => none
  | .code us digits value, c :: cs =>
    match Number.digitIn? 16 c with
    | none => none
    | some d =>
      if digits = 3 then tokens (.text ((16 * value + d) :: us)) cs
      else tokens (.code us (digits + 1) (16 * value + d)) cs

/-! ### Words -/

/-- Whether the digits before the point of a number are as JSON has them: at least one, and no
zero before others. -/
def isWhole : List Char → Bool
  | [] => false
  | ['0'] => true
  | c :: cs => c != '0' && (c :: cs).all Char.isDigit

/-- The number that a word spells. -/
def number? (word : List Char) : Option Number :=
  let (negative, cs) := match word with
    | '-' :: cs => (true, cs)
    | cs => (false, cs)
  let afterWhole := cs.dropWhile Char.isDigit
  let wellFormed := isWhole (cs.takeWhile Char.isDigit) && match afterWhole with
    | '.' :: c :: _ => c.isDigit
    | '.' :: [] => false
    | _ => true
  if wellFormed then (Decimal.ofChars? cs).map fun d => Number.signed negative d.toNumber
  else none

/-- The value that a word spells. -/
def ofWord? (word : List Char) : Option Value :=
  if word = "null".toList then some .null
  else if word = "true".toList then some (.bool true)
  else if word = "false".toList then some (.bool false)
  else (number? word).map .number

/-! ### Lists and objects -/

/-- An open list with its items so far, last first, or an open object with its fields so far and
the key whose value is next. -/
inductive Frame where
  | list (done : List Value)
  | object (done : Fields) (key : String)

/-- What may come next, inside the open lists and objects, innermost first. -/
inductive Reading where
  /-- A value. -/
  | value (stack : List Frame)
  /-- The first item of a list, or its end. -/
  | firstItem (stack : List Frame)
  /-- The first key of an object, or its end. -/
  | firstKey (stack : List Frame)
  /-- A further key of an object. -/
  | key (done : Fields) (stack : List Frame)
  /-- The colon after a key. -/
  | colon (done : Fields) (key : String) (stack : List Frame)
  /-- What follows a value: a comma, the end of a list or object, or the end of the text. -/
  | after (v : Value) (stack : List Frame)

/-- What may come after the first token of a value. -/
def Reading.start? (stack : List Frame) : Token → Option Reading
  | .openList => some (.firstItem stack)
  | .openObject => some (.firstKey stack)
  | .text s => some (.after (.text s) stack)
  | .word w => (ofWord? w).map (.after · stack)
  | _ => none

/-- What may come after one more token. -/
def Reading.next? : Reading → Token → Option Reading
  | .value stack, token => start? stack token
  | .firstItem stack, .closeList => some (.after (.list []) stack)
  | .firstItem stack, token => start? (.list [] :: stack) token
  | .firstKey stack, .closeObject => some (.after (.object []) stack)
  | .firstKey stack, .text k => some (.colon [] k stack)
  | .key done stack, .text k => some (.colon done k stack)
  | .colon done k stack, .colon => some (.value (.object done k :: stack))
  | .after v (.list done :: stack), .comma => some (.value (.list (v :: done) :: stack))
  | .after v (.list done :: stack), .closeList => some (.after (.list (v :: done).reverse) stack)
  | .after v (.object done k :: stack), .comma => some (.key (done.set k v) stack)
  | .after v (.object done k :: stack), .closeObject => some (.after (.object (done.set k v)) stack)
  | _, _ => none

/-- The value that a JSON text denotes. -/
def read? (s : String) : Option Value := do
  match ← (← tokens .between s.toList).foldlM Reading.next? (.value []) with
  | .after v [] => some v
  | _ => none

end CommentSearch.Json
