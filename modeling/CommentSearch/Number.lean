/-!
# Double-precision numbers

Request values, settings and index fields are numbers of the 64-bit binary format. A finite number
is kept as the exact rational it denotes; what is not a number and the two infinities stand apart.
The sign of zero is not kept, since no answer shows it.

Every operation is the exact one followed by a single rounding, `Number.ofRat`: the nearest number
with 53 significant binary digits and a last place no finer than `2 ^ (-1074)`, a half going to the
even neighbour, and an infinity from `2 ^ 1024` on.
-/

namespace CommentSearch

/-- A number of the 64-bit binary format. -/
inductive Number where
  /-- Not a number. -/
  | nan
  /-- An infinity. -/
  | infinite (negative : Bool)
  /-- A finite number, by the rational it denotes. -/
  | finite (value : Rat)
deriving DecidableEq, Inhabited

/-- The quotient `n / d` rounded to the nearest natural number, a half going to the even one. -/
def nearestEven (n d : Nat) : Nat :=
  let q := n / d
  let twice := 2 * (n % d)
  if twice < d then q else if d < twice then q + 1 else q + q % 2

namespace Number

/-! ### Rounding -/

/-- The exponent of the last binary place kept of `n / d`: the one that leaves 53 significant
places, but never below `-1074`. The first guess, from the lengths of `n` and `d`, is right or one
too small. -/
def lastPlace (n d : Nat) : Int :=
  let guess : Int := (n.log2 : Int) - d.log2 - 53
  let fits := n * Nat.pow 2 (-guess).toNat < Nat.pow 2 53 * (d * Nat.pow 2 guess.toNat)
  max (if fits then guess else guess + 1) (-1074)

/-- The multiple of `2 ^ lastPlace n d` nearest to `n / d`, counted in that unit. -/
def significand (n d : Nat) : Nat :=
  let place := lastPlace n d
  nearestEven (n * Nat.pow 2 (-place).toNat) (d * Nat.pow 2 place.toNat)

/-- The number nearest to a rational. -/
def ofRat (q : Rat) : Number :=
  let place := lastPlace q.num.natAbs q.den
  let units := significand q.num.natAbs q.den
  if Nat.pow 2 1024 * Nat.pow 2 (-place).toNat ≤ units * Nat.pow 2 place.toNat then
    infinite (q < 0)
  else
    finite (q.num.sign * mkRat (units * Nat.pow 2 place.toNat) (Nat.pow 2 (-place).toNat))

/-- The number of an integer, rounded where it has more than 53 significant binary digits. -/
def ofInt (n : Int) : Number := ofRat n

/-- The integer part of a finite number. -/
def toInt? : Number → Option Int
  | finite q => some (q.num.tdiv q.den)
  | _ => none

/-! ### Arithmetic -/

/-- Whether a number is finite. -/
def isFinite : Number → Bool
  | finite _ => true
  | _ => false

/-- Whether a number is equal to zero. -/
def isZero : Number → Bool
  | finite q => q = 0
  | _ => false

/-- Whether a value is not a number. -/
def isNaN : Number → Bool
  | nan => true
  | _ => false

/-- The integer part, toward zero. -/
def trunc : Number → Number
  | finite q => finite (q.num.tdiv q.den : Int)
  | x => x

/-- The absolute value. -/
def abs : Number → Number
  | finite q => finite (if q < 0 then -q else q)
  | infinite _ => infinite false
  | nan => nan

/-- The opposite number. -/
def neg : Number → Number
  | finite q => finite (-q)
  | infinite s => infinite !s
  | nan => nan

/-- The rounded sum; opposite infinities have none. -/
def add : Number → Number → Number
  | finite a, finite b => ofRat (a + b)
  | infinite s, infinite t => if s = t then infinite s else nan
  | infinite s, finite _ => infinite s
  | finite _, infinite s => infinite s
  | _, _ => nan

/-- The rounded product; an infinity times zero has none. -/
def mul : Number → Number → Number
  | finite a, finite b => ofRat (a * b)
  | infinite s, infinite t => infinite (s != t)
  | infinite s, finite b => if b = 0 then nan else infinite (s != (b < 0 : Bool))
  | finite a, infinite t => if a = 0 then nan else infinite ((a < 0 : Bool) != t)
  | _, _ => nan

/-- Strict order; nothing is below or above what is not a number. -/
def lt : Number → Number → Bool
  | finite a, finite b => a < b
  | infinite s, infinite t => s && !t
  | infinite s, finite _ => s
  | finite _, infinite t => !t
  | _, _ => false

/-- The larger of a number and zero; what is not a number stays so. -/
def atLeastZero (x : Number) : Number := if x.lt (finite 0) then finite 0 else x

end Number

end CommentSearch
