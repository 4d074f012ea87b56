import CommentSearch.Json.Reader
import CommentSearch.Yaml.Cursor
import CommentSearch.Yaml.Node

/-!
# YAML scalars

Plain scalars end at a colon, at a comment, or, within brackets, at a mark of flow collections.
Quoted scalars end at their closing quote. A scalar may go on over several lines: the blanks around
a line end do not belong to it, and the line ends themselves are folded.
-/

namespace CommentSearch.Yaml

/-! ### Plain scalars -/

/-- Whether a plain scalar can begin here. -/
def startsPlain (inFlow : Bool) : List Char → Bool
  | [] => false
  | c :: cs =>
    let hyphen := (c = '?' || c = '-') &&
      (startsWithGap cs || inFlow && match cs with
        | d :: _ => isFlowMark d
        | [] => false)
    !isGap c && !isFlowMark c && !hyphen &&
      !(['#', '&', '*', '!', '|', '>', '\'', '"', '%', '@', '\x60'].contains c)

/-- Whether a plain scalar ends before the character here. -/
def endsPlain (inFlow : Bool) (c : Cursor) : Bool :=
  match c.rest with
  | [] => true
  | ':' :: cs =>
    startsWithGap cs || inFlow && match cs with
      | d :: _ => isFlowMark d
      | [] => false
  | '#' :: _ => c.afterGap
  | ch :: _ => c.atDocumentMark || inFlow && isFlowMark ch

/-- Whether a character may stand in a plain scalar: control characters may not, nor the two last
places of the basic plane. -/
def isPrintable (c : Char) : Bool :=
  let n := c.toNat
  c = '\t' || 0x20 ≤ n && n < 0x7f || n = 0x85 || 0xa0 ≤ n && n != 0xfffe && n != 0xffff

/-- A plain scalar being read: its characters so far and the blanks after them, both last first, the
place after the characters, and the line ends since. -/
structure PlainReading where
  chars : List Char := []
  blanks : List Char := []
  stop : Cursor
  breaks : Nat := 0

/-- The characters of a plain scalar and the place after it. A further line belongs to it if it is
indented by at least `indent`. -/
def plainFrom (inFlow : Bool) (indent : Int) : Nat → PlainReading → Cursor → List Char × Cursor
  | 0, r, c => (r.chars.reverse, c)
  | fuel + 1, r, c =>
    if endsPlain inFlow c then (r.chars.reverse, c)
    else match c.rest with
    | [] => (r.chars.reverse, c)
    | ch :: cs =>
      let next := c.advance ch cs
      if isBreak ch then
        let after := c.pass false
        if indent ≤ after.indent then
          plainFrom inFlow indent fuel { r with blanks := [], breaks := after.line - c.line } after
        else (r.chars.reverse, r.stop)
      else if isSpace ch then
        plainFrom inFlow indent fuel { r with blanks := ch :: r.blanks } next
      else
        let before := if r.breaks = 0 then r.blanks else folded r.breaks
        plainFrom inFlow indent fuel { chars := ch :: before ++ r.chars, stop := next } next

/-- The plain scalar here: the empty node if there is none, and no answer if it is not printable. -/
def plain (inFlow : Bool) (indent : Int) (c : Cursor) : Option (Node × Cursor) :=
  if startsPlain inFlow c.rest then
    match plainFrom inFlow indent (c.rest.length + 1) { stop := c } c with
    | ([], _) => some (.empty, c)
    | (chars, after) =>
      if chars.all fun ch => isPrintable ch || isBreak ch then
        some (.plain (String.ofList chars), after)
      else none
  else some (.empty, c)

/-! ### Quoted scalars -/

/-- The characters that an escape of one letter stands for in double quotes. -/
def escapes : List (Char × Char) :=
  [('0', '\x00'), ('a', '\x07'), ('b', '\x08'), ('t', '\t'), ('\t', '\t'), ('n', '\n'),
    ('v', '\x0b'), ('f', '\x0c'), ('r', '\r'), ('e', '\x1b'), (' ', ' '), ('"', '"'), ('/', '/'),
    ('\\', '\\'), ('N', '\u0085'), ('_', '\u00a0'), ('L', '\u2028'), ('P', '\u2029')]

/-- The count of digits of an escape that gives a code. -/
def codeLength? (c : Char) : Option Nat :=
  if c = 'x' then some 2 else if c = 'u' then some 4 else if c = 'U' then some 8 else none

/-- Whether a character may stand in quotes. -/
def isQuotable (c : Char) : Bool := c = '\t' || 0x20 ≤ c.toNat

/-- The code units of a scalar in double quotes, last first, and the place after the closing quote.
Read so far are `units` and then the blanks `blanks`, which do not count before a line end. -/
def doubleQuotedFrom : Nat → List Nat → List Nat → Cursor → Option (List Nat × Cursor)
  | 0, _, _, _ => none
  | fuel + 1, units, blanks, c =>
    match c.rest with
    | [] => none
    | '"' :: _ => some (blanks ++ units, c.next)
    | '\\' :: [] => none
    | '\\' :: ch :: cs =>
      let units := blanks ++ units
      if isBreak ch then doubleQuotedFrom fuel units [] (c.next.pass false)
      else match escapes.lookup ch, codeLength? ch with
        | some e, _ => doubleQuotedFrom fuel (e.toNat :: units) [] c.next.next
        | none, some length => do
          let digits := cs.take length
          if digits.length < length then none
          let code ← Number.radixValue? 16 digits
          doubleQuotedFrom fuel (code :: units) [] (Nat.repeat Cursor.next (length + 2) c)
        | none, none => none
    | ch :: _ =>
      if isBreak ch then
        let after := c.pass false
        let breaks := (folded (after.line - c.line)).map Char.toNat
        doubleQuotedFrom fuel (breaks ++ units) [] after
      else if c.atDocumentMark || !isQuotable ch then none
      else if isSpace ch then doubleQuotedFrom fuel units (ch.toNat :: blanks) c.next
      else doubleQuotedFrom fuel (ch.toNat :: blanks ++ units) [] c.next

/-- The characters of a scalar in single quotes, last first, and the place after the closing quote.
Read so far are `chars` and then the blanks `blanks`, which do not count before a line end. A quote
inside is written twice. -/
def singleQuotedFrom : Nat → List Char → List Char → Cursor → Option (List Char × Cursor)
  | 0, _, _, _ => none
  | fuel + 1, chars, blanks, c =>
    match c.rest with
    | [] => none
    | '\'' :: '\'' :: _ => singleQuotedFrom fuel ('\'' :: blanks ++ chars) [] c.next.next
    | '\'' :: _ => some (blanks ++ chars, c.next)
    | ch :: _ =>
      if isBreak ch then
        let after := c.pass false
        singleQuotedFrom fuel (folded (after.line - c.line) ++ chars) [] after
      else if c.atDocumentMark || !isQuotable ch then none
      else if isSpace ch then singleQuotedFrom fuel chars (ch :: blanks) c.next
      else singleQuotedFrom fuel (ch :: blanks ++ chars) [] c.next

/-- The quoted scalar here: the empty node if no quote opens here, and no answer if the scalar is
not closed or malformed. -/
def quoted (c : Cursor) : Option (Node × Cursor) :=
  match c.rest with
  | '"' :: _ => do
    let (units, after) ← doubleQuotedFrom c.rest.length [] [] c.next
    return (.quoted (String.ofList (Json.ofUnits units.reverse)), after)
  | '\'' :: _ => do
    let (chars, after) ← singleQuotedFrom c.rest.length [] [] c.next
    return (.quoted (String.ofList chars.reverse), after)
  | _ => some (.empty, c)

end CommentSearch.Yaml
