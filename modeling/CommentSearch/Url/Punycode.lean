/-!
# Names in plain letters

The ASCII form of a label of a host name: its ASCII characters, a hyphen, and the other characters
as numbers in base 36. The others are taken by their code points in ascending order; each is given
by how many places, counted over all code points and all positions between the characters before,
it stands after the last one. The numbers have digits of a changing weight, the lowest digit first.
-/

namespace CommentSearch.Url.Punycode

/-- A digit in base 36: a small letter, or from 26 on a decimal digit. -/
def digit (n : Nat) : Char := if n < 26 then Char.ofNat (97 + n) else Char.ofNat (22 + n)

/-- The least value of the digit at a place that says that another digit follows. -/
def threshold (bias place : Nat) : Nat := max 1 (min 26 (place - bias))

/-- The digits of a number from a place on. -/
def digits (bias place n : Nat) : List Char :=
  let t := threshold bias place
  if n < t then [digit n]
  else digit (t + (n - t) % (36 - t)) :: digits bias (place + 36) ((n - t) / (36 - t))
termination_by n
decreasing_by
  have least : 1 ≤ threshold bias place := Nat.le_max_left ..
  have := Nat.div_le_self (n - threshold bias place) (36 - threshold bias place)
  omega

/-- How often a number is divided by 35 until it is at most 455, in places, and the quotient. -/
def shrink (place n : Nat) : Nat × Nat :=
  if 455 < n then shrink (place + 36) (n / 35) else (place, n)
termination_by n
decreasing_by omega

/-- The bias after a number has been written as the `count`-th character. -/
def adapted (first : Bool) (count n : Nat) : Nat :=
  let n := if first then n / 700 else n / 2
  let (place, n) := shrink 0 (n + n / count)
  place + 36 * n / (n + 38)

/-- A label of which some characters are written. -/
structure Writing where
  digits : List Char := []
  bias : Nat := 72
  /-- The count of characters written. -/
  count : Nat
  /-- The places passed since the last one. -/
  passed : Nat := 0

/-- The writing with the characters of one code point, after a look at the next character. -/
def Writing.step (w : Writing) (ascii code : Nat) (c : Char) : Writing :=
  if c.toNat < code then { w with passed := w.passed + 1 }
  else if c.toNat = code then
    { digits := w.digits ++ Punycode.digits w.bias 36 w.passed
      bias := adapted (w.count = ascii) (w.count + 1) w.passed
      count := w.count + 1 }
  else w

/-- The writing with the characters of code points in ascending order, from `least` on. -/
def Writing.extend (w : Writing) (label : List Char) (ascii least : Nat) : List Nat → Writing
  | [] => w
  | code :: codes =>
    let w := { w with passed := w.passed + (code - least) * (w.count + 1) }
    let w := label.foldl (fun w c => w.step ascii code c) w
    Writing.extend { w with passed := w.passed + 1 } label ascii (code + 1) codes

/-- The ASCII form of a label. -/
def ofLabel (label : List Char) : List Char :=
  let (ascii, others) := label.partition fun c => c.toNat < 128
  let codes := (others.map Char.toNat).eraseDups.mergeSort
  let written := Writing.extend { count := ascii.length } label ascii.length 128 codes
  ascii ++ (if ascii.isEmpty then [] else ['-']) ++ written.digits

end CommentSearch.Url.Punycode
