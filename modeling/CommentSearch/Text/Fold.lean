/-!
# Case of keywords

Keywords are compared without regard to case, by full case folding. Every keyword is written in
plain ASCII letters, so the folds only need those letters whose capital or small form has plain
letters in it; all others stay as they are and match no keyword.
-/

namespace CommentSearch.Text

/-- The capital form of a character, which can be several characters long. -/
def capitals (c : Char) : List Char :=
  match c with
  | 'ß' => ['S', 'S']
  | 'ı' => ['I']
  | 'ſ' => ['S']
  | 'ﬀ' => ['F', 'F']
  | 'ﬁ' => ['F', 'I']
  | 'ﬂ' => ['F', 'L']
  | 'ﬃ' => ['F', 'F', 'I']
  | 'ﬄ' => ['F', 'F', 'L']
  | 'ﬅ' => ['S', 'T']
  | 'ﬆ' => ['S', 'T']
  | c => [c.toUpper]

/-- The small form of a character; the Kelvin sign is a capital k. -/
def small (c : Char) : Char :=
  match c with
  | '\u212a' => 'k'
  | c => c.toLower

/-- A keyword in capitals. -/
def toCapitals (s : String) : String := String.ofList (s.toList.flatMap capitals)

/-- A keyword in small letters. -/
def toSmall (s : String) : String := String.ofList (s.toList.map small)

end CommentSearch.Text
