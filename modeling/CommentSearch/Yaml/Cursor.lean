/-!
# Positions in a YAML text

A cursor is the text still to be read together with what the layout of YAML asks about the place:
line, column, and how far its line is indented.
-/

namespace CommentSearch.Yaml

/-- A place in a text. -/
structure Cursor where
  /-- The characters from here on. -/
  rest : List Char
  line : Nat := 0
  column : Nat := 0
  /-- The blanks at the start of the line. -/
  indent : Nat := 0
  /-- Whether a tab has been passed over on the line. -/
  tabbed : Bool := false
  /-- Whether a blank or a line end comes directly before. -/
  afterGap : Bool := false

/-- Whether a character ends a line. -/
def isBreak (c : Char) : Bool := c = '\n' || c = '\r'

/-- Whether a character is a blank within a line. -/
def isSpace (c : Char) : Bool := c = ' ' || c = '\t'

/-- Whether a character divides tokens. -/
def isGap (c : Char) : Bool := isSpace c || isBreak c

/-- Whether a character has a meaning of its own within brackets. -/
def isFlowMark (c : Char) : Bool :=
  c = ',' || c = '[' || c = ']' || c = '\x7b' || c = '\x7d'

/-- Whether the text begins with a character that divides tokens. -/
def startsWithGap : List Char → Bool
  | [] => false
  | c :: _ => isGap c

namespace Cursor

/-- The place after so many characters of the line, the last of them `last`. -/
def advance (c : Cursor) (last : Char) (rest : List Char) : Cursor :=
  { c with rest := rest, column := c.column + 1, afterGap := isGap last }

/-- The place after the next character of the line. -/
def next (c : Cursor) : Cursor :=
  match c.rest with
  | [] => c
  | ch :: cs => c.advance ch cs

/-- The place after blanks, line ends and comments. `inComment` tells that a comment is being
passed over, `leading` that the line has had nothing but its indentation. -/
def passFrom (comments : Bool) (inComment leading : Bool) (c : Cursor) : List Char → Cursor
  | [] => { c with rest := [] }
  | ch :: cs =>
    if ch = '\r' ∧ cs.head? = some '\n' then passFrom comments inComment leading c cs
    else if isBreak ch then
      passFrom comments false true ⟨cs, c.line + 1, 0, 0, false, true⟩ cs
    else if inComment then passFrom comments true leading (c.advance ' ' cs) cs
    else if ch = ' ' then
      let c := c.advance ch cs
      passFrom comments false leading (if leading then { c with indent := c.indent + 1 } else c) cs
    else if ch = '\t' then passFrom comments false false { c.advance ch cs with tabbed := true } cs
    else if comments && ch = '#' then passFrom comments true leading (c.advance ' ' cs) cs
    else { c with rest := ch :: cs }

/-- The place after blanks and line ends, and after comments if they count as such. -/
def pass (c : Cursor) (comments : Bool) : Cursor := passFrom comments false false c c.rest

/-- The place after the blanks of the line. -/
def passSpaces (c : Cursor) : Cursor :=
  let skipped := c.rest.takeWhile isSpace
  { c with
    rest := c.rest.dropWhile isSpace
    column := c.column + skipped.length
    afterGap := c.afterGap || !skipped.isEmpty }

/-- Whether a mark of three characters that ends a document stands here. -/
def atDocumentMark (c : Cursor) : Bool :=
  c.column = 0 && match c.rest with
    | '-' :: '-' :: '-' :: cs => cs.isEmpty || startsWithGap cs
    | '.' :: '.' :: '.' :: cs => cs.isEmpty || startsWithGap cs
    | _ => false

end Cursor

/-- The characters that so many line ends within a text stand for: one is a blank, and of several
the first is dropped. -/
def folded (breaks : Nat) : List Char :=
  if breaks = 1 then [' '] else List.replicate (breaks - 1) '\n'

end CommentSearch.Yaml
