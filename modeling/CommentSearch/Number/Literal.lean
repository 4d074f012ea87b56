import CommentSearch.Number.Decimal
import CommentSearch.Text.Blank

/-!
# Numbers read from text

Three readings of a number in a text: the integer it starts with, the narrow grammar of
numeric-looking text, and the full grammar of number literals. The decimal literals of the last two
are the same; the full grammar adds the empty text, `Infinity` and the unsigned literals in base
2, 8 and 16.
-/

namespace CommentSearch

namespace Decimal

/-! ### Unsigned decimal literals -/

/-- The value of a run of decimal digits. -/
def digitsValue (digits : List Char) : Nat := Nat.ofDigitChars 10 digits 0

/-- The digits of a literal before its exponent, with the characters after them: digits with an
optional point among them, or before or after them, and at least one digit. -/
def scanDigits (cs : List Char) : Option (Decimal × List Char) :=
  let whole := cs.takeWhile Char.isDigit
  match cs.dropWhile Char.isDigit with
  | '.' :: after =>
    let places := after.takeWhile Char.isDigit
    if whole.isEmpty && places.isEmpty then none
    else
      some (⟨digitsValue (whole ++ places), -(places.length : Int)⟩, after.dropWhile Char.isDigit)
  | rest => if whole.isEmpty then none else some (⟨digitsValue whole, 0⟩, rest)

/-- An optional sign and the characters after it; true stands for minus. -/
def scanSign : List Char → Bool × List Char
  | '-' :: cs => (true, cs)
  | '+' :: cs => (false, cs)
  | cs => (false, cs)

/-- The exponent that a text spells in full; the empty text spells none and stands for zero. -/
def exponentOf? : List Char → Option Int
  | [] => some 0
  | c :: cs =>
    if c = 'e' ∨ c = 'E' then
      let (negative, digits) := scanSign cs
      if !digits.isEmpty && digits.all Char.isDigit then
        some (if negative then -(digitsValue digits : Int) else digitsValue digits)
      else none
    else none

/-- The decimal that an unsigned literal denotes. -/
def ofChars? (cs : List Char) : Option Decimal := do
  let (d, rest) ← scanDigits cs
  let e ← exponentOf? rest
  return ⟨d.mantissa, d.exponent + e⟩

end Decimal

namespace Number

/-- A magnitude with its sign. -/
def signed (negative : Bool) (magnitude : Number) : Number :=
  if negative then magnitude.neg else magnitude

/-- The number of a decimal literal with an optional sign. -/
def ofDecimalLiteral? (cs : List Char) : Option Number :=
  let (negative, magnitude) := Decimal.scanSign cs
  (Decimal.ofChars? magnitude).map fun d => signed negative d.toNumber

/-- Whether a text is a decimal literal between blanks. -/
def isNumericText (s : String) : Bool := (ofDecimalLiteral? (Text.trimChars s.toList)).isSome

/-! ### The integer a text starts with -/

/-- The integer at the start of a text, after blanks and an optional sign. -/
def leadingInt? (s : String) : Option Int :=
  let (negative, cs) := Decimal.scanSign (s.toList.dropWhile Text.isBlank)
  let digits := cs.takeWhile Char.isDigit
  if digits.isEmpty then none
  else some (if negative then -(Decimal.digitsValue digits : Int) else Decimal.digitsValue digits)

/-- The number at the start of a text, zero if there is none. -/
def leading (s : String) : Number := ofInt ((leadingInt? s).getD 0)

/-! ### Number literals -/

/-- The value of a digit in a base up to 16. -/
def digitIn? (base : Nat) (c : Char) : Option Nat :=
  let value? :=
    if c.isDigit then some (c.toNat - 48)
    else if 'a' ≤ c ∧ c ≤ 'f' then some (c.toNat - 87)
    else if 'A' ≤ c ∧ c ≤ 'F' then some (c.toNat - 55)
    else none
  value?.filter (· < base)

/-- The value of a non-empty run of digits in a base up to 16. -/
def radixValue? (base : Nat) (digits : List Char) : Option Nat :=
  if digits.isEmpty then none
  else digits.foldlM (fun n c => (digitIn? base c).map (base * n + ·)) 0

/-- The base that the letter of a literal such as `0x1f` stands for. -/
def radixOf? (c : Char) : Option Nat :=
  if c = 'x' ∨ c = 'X' then some 16
  else if c = 'o' ∨ c = 'O' then some 8
  else if c = 'b' ∨ c = 'B' then some 2
  else none

/-- The number of an unsigned literal in base 2, 8 or 16. -/
def ofRadixLiteral? : List Char → Option Number
  | '0' :: letter :: digits => do
    let base ← radixOf? letter
    let n ← radixValue? base digits
    return ofInt n
  | _ => none

/-- The infinity that a literal spells. -/
def ofInfinityLiteral? (cs : List Char) : Option Number :=
  let (negative, name) := Decimal.scanSign cs
  if name = "Infinity".toList then some (infinite negative) else none

/-- The number that a text denotes between blanks: a decimal, an infinity, an unsigned number in
base 2, 8 or 16, or zero for the empty text; any other text is not a number. -/
def ofText (s : String) : Number :=
  let cs := Text.trimChars s.toList
  if cs.isEmpty then finite 0
  else (ofDecimalLiteral? cs <|> ofInfinityLiteral? cs <|> ofRadixLiteral? cs).getD nan

end Number

end CommentSearch
