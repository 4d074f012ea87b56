/-!
# Blanks and the cutting of text

Which characters count as blank, and the ways a text is cut at blanks and at commas. All functions
work on lists of characters; those on `String` wrap them.
-/

namespace CommentSearch.Text

/-- The blank characters: the control characters tab to carriage return, the space separators, the
two line separators and the byte order mark. -/
def isBlank (c : Char) : Bool :=
  let n := c.toNat
  (9 ≤ n && n ≤ 13) || n = 0x20 || n = 0xA0 || n = 0x1680 || (0x2000 ≤ n && n ≤ 0x200A) ||
    n = 0x2028 || n = 0x2029 || n = 0x202F || n = 0x205F || n = 0x3000 || n = 0xFEFF

/-! ### Trimming -/

/-- A text without the blanks at its end. -/
def trimEndChars (cs : List Char) : List Char := (cs.reverse.dropWhile isBlank).reverse

/-- A text without the blanks at its two ends. -/
def trimChars (cs : List Char) : List Char := trimEndChars (cs.dropWhile isBlank)

/-- A text without the blanks at its two ends. -/
def trim (s : String) : String := String.ofList (trimChars s.toList)

/-- Whether a text has nothing but blanks. -/
def isAllBlank (s : String) : Bool := s.toList.all isBlank

/-! ### Cutting -/

/-- The pieces between the places of one character; a text without it is one piece. -/
def splitAt (c : Char) (s : String) : List String := (s.toList.splitOn c).map String.ofList

/-- The maximal runs of characters that are no separators. `run` holds the run being read. -/
def runsFrom (isSeparator : Char → Bool) (run : List Char) : List Char → List (List Char)
  | [] => if run.isEmpty then [] else [run]
  | c :: cs =>
    if isSeparator c then
      if run.isEmpty then runsFrom isSeparator [] cs else run :: runsFrom isSeparator [] cs
    else
      runsFrom isSeparator (run ++ [c]) cs

/-- The maximal runs of characters that are no separators, in order. -/
def runs (isSeparator : Char → Bool) (s : String) : List String :=
  (runsFrom isSeparator [] s.toList).map String.ofList

/-- Blanks and commas divide the entries of a list given as text. -/
def isListSeparator (c : Char) : Bool := isBlank c || c = ','

end CommentSearch.Text
