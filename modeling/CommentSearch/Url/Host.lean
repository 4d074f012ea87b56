import CommentSearch.Text.Blank
import CommentSearch.Url.Escape
import CommentSearch.Url.Punycode

/-!
# Hosts

A host is a name, a numeric address of four bytes, or in brackets an address of eight groups. Each
has one text in a URL: names are in small letters and in ASCII, addresses in their shortest form.

Of the letters beyond ASCII, the capitals of the Latin, Greek and Cyrillic alphabets are made small,
and wide forms become the usual ones. The rest of the tables for international names is left out,
and so is what they forbid: a name is read as such tables have it if its other characters are mapped
to themselves there, if it uses no combining marks and no writing from right to left, and if no
label of it is given in the form `xn--` already.
-/

namespace CommentSearch.Url

/-! ### Addresses of four bytes -/

/-- The value of a part of a numeric address, in base 10, 8 or 16. -/
def addressPart? (cs : List Char) : Option Nat :=
  match cs with
  | ['0', 'x'] => some 0
  | '0' :: 'x' :: digits => Number.radixValue? 16 digits
  | ['0'] => some 0
  | '0' :: digits => Number.radixValue? 8 digits
  | digits => Number.radixValue? 10 digits

/-- The value of a numeric address of up to four parts: all but the last are bytes, and the last
fills the rest. -/
def addressValue? (parts : List Nat) : Option Nat :=
  let last := parts.getLastD 0
  let bytes := parts.dropLast
  let width := Nat.pow 256 (5 - parts.length)
  if parts.length ≤ 4 ∧ bytes.all (· ≤ 255) ∧ last < width then
    some (bytes.foldl (fun n byte => 256 * n + byte) 0 * width + last)
  else none

/-- The text of a numeric address. -/
def addressText (n : Nat) : List Char :=
  let bytes := [16777216, 65536, 256, 1].map fun unit => Nat.toDigits 10 (n / unit % 256)
  ['.'].intercalate bytes

/-! ### Addresses of eight groups -/

/-- The value of a byte of an address of four bytes within one of eight groups. -/
def plainByte? (cs : List Char) : Option Nat := do
  let n ← Number.radixValue? 10 cs
  if Nat.toDigits 10 n = cs ∧ n ≤ 255 then return n else none

/-- The groups that a part between colons gives: one, or at the end two by their four bytes. -/
def groupsOf? (atEnd : Bool) (cs : List Char) : Option (List Nat) :=
  match atEnd, (cs.splitOn '.').mapM plainByte? with
  | true, some [a, b, c, d] => some [256 * a + b, 256 * c + d]
  | _, _ => if cs.length ≤ 4 then (Number.radixValue? 16 cs).map ([·]) else none

/-- The groups that parts between colons give; only the last part may be at the end. -/
def allGroups? (atEnd : Bool) : List (List Char) → Option (List Nat)
  | [] => some []
  | [part] => groupsOf? atEnd part
  | part :: parts => do return (← groupsOf? false part) ++ (← allGroups? atEnd parts)

/-- The groups of a text between its colons; none if it is empty. -/
def groups? (atEnd : Bool) (cs : List Char) : Option (List Nat) :=
  if cs.isEmpty then some [] else allGroups? atEnd (cs.splitOn ':')

/-- A text before and after its first double colon. -/
def splitDouble? : List Char → Option (List Char × List Char)
  | [] => none
  | ':' :: ':' :: cs => some ([], cs)
  | c :: cs => (splitDouble? cs).map fun (before, after) => (c :: before, after)

/-- The eight groups that a text gives. A double colon stands for one group of zero or more. -/
def eightGroups? (cs : List Char) : Option (List Nat) :=
  match splitDouble? cs with
  | none => (groups? true cs).filter (·.length = 8)
  | some (before, after) => do
    let before ← groups? false before
    let after ← groups? true after
    let missing := 8 - (before.length + after.length)
    if missing = 0 then none else return before ++ List.replicate missing 0 ++ after

/-- The first and longest run of zeros: where it starts and how long it is. -/
def longestZeros (groups : List Nat) : Nat × Nat :=
  (List.range groups.length).foldl (fun best start =>
    let length := ((groups.drop start).takeWhile (· = 0)).length
    if best.2 < length then (start, length) else best) (0, 0)

/-- The text of groups, two or more zeros in a row shortened to a double colon. -/
def groupsText (groups : List Nat) : List Char :=
  let text := fun (gs : List Nat) => [':'].intercalate (gs.map (Nat.toDigits 16))
  let (start, length) := longestZeros groups
  if length < 2 then text groups
  else text (groups.take start) ++ [':', ':'] ++ text (groups.drop (start + length))

/-! ### Names -/

/-- The characters of a name that a character stands for: a wide character for its usual form, a
capital for the small letter, a soft hyphen for nothing. A control character stays one that no host
can have. -/
def nameChars (c : Char) : List Char :=
  let n := c.toNat
  let shifted := fun (k : Nat) => [Char.ofNat (n + k)]
  if n < 0x80 then [c.toLower]
  else if n < 0xa0 then ['\x7f']
  else if n = 0xad then []
  else if n = 0x3002 ∨ n = 0xff61 then ['.']
  else if 0xff01 ≤ n ∧ n ≤ 0xff5e then [(Char.ofNat (n - 0xfee0)).toLower]
  else if 0xc0 ≤ n ∧ n ≤ 0xde ∧ n ≠ 0xd7 then shifted 32
  else if 0x391 ≤ n ∧ n ≤ 0x3ab ∧ n ≠ 0x3a2 then shifted 32
  else if 0x410 ≤ n ∧ n ≤ 0x42f then shifted 32
  else if 0x400 ≤ n ∧ n ≤ 0x40f then shifted 80
  else if 0x100 ≤ n ∧ n ≤ 0x12f ∨ 0x14a ≤ n ∧ n ≤ 0x177 then shifted (1 - n % 2)
  else if 0x139 ≤ n ∧ n ≤ 0x148 ∨ 0x179 ≤ n ∧ n ≤ 0x17e then shifted (n % 2)
  else [c]

/-- A label of a name in ASCII. -/
def asciiLabel (label : List Char) : List Char :=
  if label.all fun c => c.toNat < 128 then label
  else ['x', 'n', '-', '-'] ++ Punycode.ofLabel label

/-- Whether a character can stand in no host. -/
def isForbidden (c : Char) : Bool :=
  c.toNat ≤ 0x20 || c = '\x7f' || "#%/:<>?@[\\]^|".contains c

/-- The labels of a name, without the empty one after a full stop at the end. -/
def significantLabels (labels : List (List Char)) : List (List Char) :=
  if labels.getLast? = some [] ∧ 1 < labels.length then labels.dropLast else labels

/-- The text of the host that a name or a numeric address gives. The latter is known by its last
part, which is a number. -/
def name? (cs : List Char) : Option String := do
  let s ← looselyUnescaped? cs
  let labels := ((s.toList.flatMap nameChars).splitOn '.').map asciiLabel
  let name := ['.'].intercalate labels
  let parts := significantLabels labels
  let last := parts.getLastD []
  if name.isEmpty ∨ name.any isForbidden then none
  else if last ≠ [] ∧ (last.all Char.isDigit ∨ (addressPart? last).isSome) then
    return String.ofList (addressText (← addressValue? (← parts.mapM addressPart?)))
  else return String.ofList name

/-- The text of an address of eight groups in brackets. -/
def bracketed? (cs : List Char) : Option String :=
  match cs, cs.getLast? with
  | '[' :: inner, some ']' =>
    (eightGroups? inner.dropLast).map fun groups =>
      String.ofList ('[' :: groupsText groups ++ [']'])
  | _, _ => none

/-- The text of the host of a URL of the web. -/
def host? (cs : List Char) : Option String :=
  if cs.head? = some '[' then bracketed? cs else name? cs

/-- The text of the host of a file, which may be empty. The letter of a drive is no host. -/
def fileHost? (cs : List Char) : Option String :=
  match cs with
  | [] => some ""
  | [c, mark] => if c.isAlpha ∧ (mark = ':' ∨ mark = '|') then some "" else host? cs
  | cs => host? cs

/-- The text of the host of any other URL, which may be empty. -/
def otherHost? (cs : List Char) : Option String :=
  if cs.head? = some '[' then bracketed? cs
  else if cs.any fun c => c = ' ' || "#/:<>?@[\\]^|".contains c then none
  else some (String.ofList (escaped "" cs))

end CommentSearch.Url
