import CommentSearch.Number.Literal

/-!
# Escapes in URLs

A character that has a meaning of its own in its part of a URL, or is no visible ASCII character, is
written by the bytes of its UTF-8 form, each as a percent sign and two digits in base 16.
-/

namespace CommentSearch.Url

/-- A byte as it stands in a URL where its character must not. -/
def escapedByte (byte : UInt8) : List Char :=
  let n := byte.toNat
  ['%', (Nat.digitChar (n / 16)).toUpper, (Nat.digitChar (n % 16)).toUpper]

/-- The bytes of a character. -/
def utf8Bytes (c : Char) : List UInt8 := (String.singleton c).toUTF8.toList

/-- A text in which the characters of a set, and all that are not visible ASCII characters, are
escaped. -/
def escaped (set : String) (cs : List Char) : List Char :=
  cs.flatMap fun c =>
    if c.toNat ≤ 0x20 ∨ 0x7E < c.toNat ∨ set.contains c then (utf8Bytes c).flatMap escapedByte
    else [c]

/-- The bytes of a text whose escapes are read; a percent sign that begins no escape is given to
`stray`, which tells what it stands for. -/
def bytes? (stray : Option UInt8) : List Char → Option (List UInt8)
  | [] => some []
  | '%' :: a :: b :: cs =>
    match Number.radixValue? 16 [a, b] with
    | some n => (bytes? stray cs).map (n.toUInt8 :: ·)
    | none => do return (← stray) :: (← bytes? stray (a :: b :: cs))
  | c :: cs => do
    let bytes ← if c = '%' then stray.map ([·]) else some (utf8Bytes c)
    return bytes ++ (← bytes? stray cs)

/-- The text of bytes, if they are the UTF-8 form of one. -/
def ofBytes? (bytes : List UInt8) : Option String := String.fromUTF8? ⟨bytes.toArray⟩

/-- The text whose escaped form is given. A percent sign has to begin an escape. -/
def unescaped? (s : String) : Option String := (bytes? none s.toList).bind ofBytes?

/-- The text whose escaped form is given. A percent sign that begins no escape stands for itself. -/
def looselyUnescaped? (cs : List Char) : Option String :=
  (bytes? (some 0x25) cs).bind ofBytes?

end CommentSearch.Url
