import CommentSearch.Fault
import CommentSearch.Url.Host

/-!
# Addresses of the backend

The URL of a backend: one of the two schemes of the web, a name and a password if there are any, a
host, the number of a socket unless it is the usual one of the scheme, and a path. A URL of another
scheme is told apart from a text that is none.
-/

namespace CommentSearch

/-- The address of a backend. -/
structure Url where
  /-- The scheme in small letters. -/
  scheme : String
  /-- The name in front of the host, escaped. -/
  username : String := ""
  /-- The password in front of the host, escaped. -/
  password : String := ""
  host : String := ""
  socket : Option Nat := none
  path : String := ""
deriving DecidableEq

/-- A name and a password. -/
structure Credentials where
  username : String
  password : String
deriving DecidableEq

namespace Url

/-- Whether the scheme is one of the web. -/
def isWeb (u : Url) : Bool := u.scheme = "http" || u.scheme = "https"

/-- The name and the password as they stand in front of the host. -/
def userInfo (u : Url) : String :=
  if u.username = "" ∧ u.password = "" then ""
  else u.username ++ (if u.password = "" then "" else ":" ++ u.password) ++ "@"

/-- The text of an address. -/
def toText (u : Url) : String :=
  u.scheme ++ "://" ++ u.userInfo ++ u.host ++
    (match u.socket with
      | some socket => ":" ++ toString socket
      | none => "") ++ u.path

/-- The credentials of an address, if it has both a name and a password; a fault if one of the two
is the escaped form of no text. -/
def credentials? (u : Url) : Except Fault (Option Credentials) := do
  let some username := unescaped? u.username | throw .malformedEscape
  let some password := unescaped? u.password | throw .malformedEscape
  return if username = "" ∨ password = "" then none else some ⟨username, password⟩

/-! ### Reading -/

/-- A text without what a URL drops: the blank and control characters at its ends, and all tabs and
line ends. -/
def cleaned (s : String) : List Char :=
  let ignored := fun (c : Char) => decide (c.toNat ≤ 0x20)
  let cs := (s.toList.dropWhile ignored).reverse.dropWhile ignored
  cs.reverse.filter fun c => c ≠ '\t' ∧ c ≠ '\n' ∧ c ≠ '\r'

/-- The scheme of a URL in small letters, and what follows its colon. -/
def scheme? (cs : List Char) : Option (String × List Char) :=
  let isPart := fun (c : Char) => c.isAlphanum || c = '+' || c = '-' || c = '.'
  match cs.span isPart with
  | (c :: name, ':' :: rest) =>
    if c.isAlpha then some (String.ofList ((c :: name).map Char.toLower), rest) else none
  | _ => none

/-- The schemes whose URLs have hosts like those of the web. -/
def hostSchemes : List String := ["http", "https", "ftp", "ws", "wss"]

/-- The socket number that digits name, if it is not the usual one of the scheme; a fault if there
is no such number. -/
def readSocket (scheme : String) (cs : List Char) : Except Fault (Option Nat) :=
  let socket := Nat.ofDigitChars 10 cs 0
  let usual := [("http", 80), ("https", 443)].lookup scheme
  if cs.isEmpty then .ok none
  else if cs.all Char.isDigit ∧ socket ≤ 65535 then
    .ok (if some socket = usual then none else some socket)
  else .error .invalidUrl

/-- An address without its path: the name and the password before the last sign `@`, the host, and
the number after the colon that follows it. -/
def readAuthority (scheme : String) (cs : List Char) : Except Fault Url := do
  let signed := (cs.reverse.dropWhile (· ≠ '@')).reverse
  let place := cs.drop signed.length
  let (username, password) := signed.dropLast.span (· ≠ ':')
  let (bracket, rest) := if place.head? = some '[' then place.span (· ≠ ']') else ([], place)
  let (name, socket) := rest.span (· ≠ ':')
  let host := bracket ++ name
  if host.isEmpty ∧ !(signed.isEmpty ∧ socket.isEmpty) then throw .invalidUrl
  let readHost? := if hostSchemes.contains scheme then host? else otherHost?
  let some host := readHost? host | throw .invalidUrl
  let userSet := "\"#/:;<=>?@[\\]^\x60\x7b|\x7d"
  return {
    scheme := scheme
    username := String.ofList (escaped userSet username)
    password := String.ofList (escaped userSet (password.drop 1))
    host := host
    socket := ← readSocket scheme (socket.drop 1) }

/-- The segments of a path without those that stand for the same level and those that are taken
back by the next. `done` holds the ones before, last first. -/
def resolved (done : List String) : List String → List String
  | [] => done.reverse
  | segment :: rest =>
    let name := segment.toLower.replace "%2e" "."
    let done := if name = ".." then done.drop 1 else if name = "." then done else segment :: done
    let atEnd := rest.isEmpty && (name = "." || name = "..")
    resolved (if atEnd then "" :: done else done) rest

/-- A path, with what follows it, as it stands in a URL. -/
def pathText (cs : List Char) : String :=
  let (path, rest) := cs.span fun c => c ≠ '?' && c ≠ '#'
  let (query, fragment) := rest.span (· ≠ '#')
  let path := path.map fun c => if c = '\\' then '/' else c
  let path := if path.head? = some '/' then path.drop 1 else path
  let path := String.ofList (escaped "\"<>\x60\x7b\x7d" path)
  "/" ++ "/".intercalate (resolved [] (Text.splitAt '/' path)) ++
    String.ofList (escaped "\"<>'" query ++ escaped "\"<>\x60" fragment)

/-- The address that a text gives. Where the URLs of a scheme have hosts, any number of slashes may
come before; where they need not, two slashes come before a host. International names are read as
far as `Url.host?` maps them. -/
def read (s : String) : Except Fault Url := do
  let some (scheme, rest) := scheme? (cleaned s) | throw .invalidUrl
  let isSlash := fun (c : Char) => c = '/' || c = '\\'
  let isInAuthority := fun (c : Char) => !isSlash c && c ≠ '?' && c ≠ '#'
  if hostSchemes.contains scheme then
    let (authority, path) := (rest.dropWhile isSlash).span isInAuthority
    return { ← readAuthority scheme authority with path := pathText path }
  else if scheme = "file" then
    if (rest.take 2).length = 2 ∧ (rest.take 2).all isSlash then
      let some host := fileHost? ((rest.drop 2).takeWhile isInAuthority) | throw .invalidUrl
      return { scheme := scheme, host := host }
    else return { scheme := scheme }
  else match rest with
    | '/' :: '/' :: rest =>
      readAuthority scheme (rest.takeWhile fun c => c ≠ '/' && c ≠ '?' && c ≠ '#')
    | _ => return { scheme := scheme }

end Url

end CommentSearch
