import CommentSearch.Value

/-!
# Compact JSON text of values

Objects are written in the order in which they are listed. A number that is not finite has no JSON
text and is written as null. Inside a text the quote, the backslash and the control characters
below the blank are escaped, and nothing else.
-/

namespace CommentSearch.Json

/-- The digit of a value below sixteen, in small letters. -/
def hexDigit (n : Nat) : Char := Nat.digitChar n

/-- A character as it stands inside a written text. -/
def escapeChar (c : Char) : List Char :=
  match c with
  | '"' => ['\\', '"']
  | '\\' => ['\\', '\\']
  | '\x08' => ['\\', 'b']
  | '\t' => ['\\', 't']
  | '\n' => ['\\', 'n']
  | '\x0c' => ['\\', 'f']
  | '\r' => ['\\', 'r']
  | c =>
    if c.toNat < 0x20 then ['\\', 'u', '0', '0', hexDigit (c.toNat / 16), hexDigit (c.toNat % 16)]
    else [c]

/-- A text in quotes. -/
def quote (s : String) : List Char := '"' :: s.toList.flatMap escapeChar ++ ['"']

/-- Written items with commas between them. -/
def joined : List (List Char) → List Char
  | [] => []
  | [item] => item
  | item :: items => item ++ ',' :: joined items

mutual

/-- The JSON text of a value. -/
def chars : Value → List Char
  | .null => "null".toList
  | .bool b => (if b then "true" else "false").toList
  | .number x => if x.isFinite then x.toChars else "null".toList
  | .text s => quote s
  | .list items => '[' :: joined (itemChars items) ++ [']']
  | .object fields =>
    let written := (listed (fieldChars fields)).map fun (k, v) => quote k ++ ':' :: v
    '\x7b' :: joined written ++ ['\x7d']

/-- The JSON texts of the items of a list. -/
def itemChars : List Value → List (List Char)
  | [] => []
  | item :: items => chars item :: itemChars items

/-- The JSON texts of the values of an object, each under its key. -/
def fieldChars : List (String × Value) → List (String × List Char)
  | [] => []
  | (key, v) :: fields => (key, chars v) :: fieldChars fields

end

/-- The JSON text of a value. -/
def write (v : Value) : String := String.ofList (chars v)

end CommentSearch.Json
