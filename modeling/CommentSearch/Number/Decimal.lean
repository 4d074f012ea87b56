import CommentSearch.Number

/-!
# Decimal text of numbers

A decimal is a natural number times a power of ten. This module rounds decimals to numbers and
writes numbers in decimals: the fewest digits that read back, of two such decimals the nearer,
positional from `10 ^ (-6)` up to `10 ^ 21` and with an exponent outside.
-/

namespace CommentSearch

/-- The natural number `mantissa` times ten to the power `exponent`. -/
structure Decimal where
  mantissa : Nat
  exponent : Int
deriving DecidableEq

namespace Decimal

/-- The rational a decimal denotes. -/
def toRat (d : Decimal) : Rat :=
  mkRat (d.mantissa * Nat.pow 10 d.exponent.toNat) (Nat.pow 10 (-d.exponent).toNat)

/-- The number nearest to a decimal. Two bounds settle the cases far out of range without
computing the power of ten: `10 ^ e` is at least `2 ^ (3 * e)` for a natural `e`, and at most
`2 ^ (3 * e)` for a negative one. -/
def toNumber (d : Decimal) : Number :=
  if d.mantissa = 0 then .finite 0
  else if 0 ≤ d.exponent ∧ 1024 ≤ (d.mantissa.log2 : Int) + 3 * d.exponent then .infinite false
  else if d.exponent < 0 ∧ (d.mantissa.log2 : Int) + 1 + 3 * d.exponent ≤ -1076 then .finite 0
  else .ofRat d.toRat

end Decimal

namespace Number

/-! ### The fewest digits -/

/-- The place of the decimal point of a positive rational: the `k` with
`10 ^ (k - 1) ≤ q < 10 ^ k`. -/
def pointOf (q : Rat) : Int :=
  let guess : Int := ((Nat.toDigits 10 q.num.natAbs).length : Int) - (Nat.toDigits 10 q.den).length
  if q < (Decimal.mk 1 guess).toRat then guess else guess + 1

/-- The decimal of `places` digits that rounds to the positive rational `q`, if there is one. The
two neighbours of `q` on the grid of such decimals are tried: of two that round to `q` the nearer
is taken, and the even one of two equally near. -/
def decimalOf? (q : Rat) (places : Nat) : Option Decimal :=
  let exponent := pointOf q - places
  let scaled := q * (Decimal.mk 1 (-exponent)).toRat
  let below := scaled.floor.toNat
  let lower : Decimal := ⟨below, exponent⟩
  let upper : Decimal := ⟨below + 1, exponent⟩
  let fraction := scaled - below
  match decide (lower.toNumber = finite q), decide (upper.toNumber = finite q) with
  | true, true =>
    if fraction < 1 / 2 then some lower
    else if 1 / 2 < fraction then some upper
    else some (if below % 2 = 0 then lower else upper)
  | true, false => some lower
  | false, true => some upper
  | false, false => none

/-- All decimal places of a rational whose denominator is a power of two. -/
def allPlaces (q : Rat) : Decimal :=
  let places := q.den.log2
  ⟨(q * 10 ^ places).floor.toNat, -(places : Int)⟩

/-- A decimal with the fewest digits that rounds to the positive rational `q`. Seventeen digits are
enough for every number. -/
def shortest (q : Rat) : Decimal :=
  ((List.range 17).findSome? fun i => decimalOf? q (i + 1)).getD (allPlaces q)

/-! ### Layout -/

/-- Digits without the zeros at their end. -/
def significant (digits : List Char) : List Char :=
  (digits.reverse.dropWhile (· = '0')).reverse

/-- An exponent with its sign. -/
def exponentChars (e : Int) : List Char :=
  'e' :: (if e < 0 then '-' else '+') :: Nat.toDigits 10 e.natAbs

/-- The text of the digits `0.d₁d₂…` times ten to the power `point`. -/
def layout (digits : List Char) (point : Int) : List Char :=
  if digits.length ≤ point ∧ point ≤ 21 then
    digits ++ List.replicate (point.toNat - digits.length) '0'
  else if 0 < point ∧ point ≤ 21 then
    digits.take point.toNat ++ '.' :: digits.drop point.toNat
  else if -6 < point ∧ point ≤ 0 then
    '0' :: '.' :: List.replicate (-point).toNat '0' ++ digits
  else
    match digits with
    | [] => []
    | [d] => d :: exponentChars (point - 1)
    | d :: ds => d :: '.' :: ds ++ exponentChars (point - 1)

/-- The text of a positive rational. -/
def positiveChars (q : Rat) : List Char :=
  let d := shortest q
  let digits := Nat.toDigits 10 d.mantissa
  layout (significant digits) (digits.length + d.exponent)

/-- The text of a number. -/
def toChars : Number → List Char
  | nan => "NaN".toList
  | infinite negative => (if negative then "-Infinity" else "Infinity").toList
  | finite q =>
    if q = 0 then ['0']
    else if q < 0 then '-' :: positiveChars (-q)
    else positiveChars q

/-- The text of a number. -/
def toText (x : Number) : String := String.ofList x.toChars

end Number

end CommentSearch
