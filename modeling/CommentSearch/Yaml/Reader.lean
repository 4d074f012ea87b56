import CommentSearch.Yaml.Scalar

/-!
# Reading YAML

Block mappings and sequences, flow collections and scalars, of which a text may hold one document.
Anchors, tags, explicit keys and block scalars are not read; a text that has them is malformed, like
one with tabs as indentation, with parts that are not closed, or with nodes nested too deeply.

The readers give no answer for a malformed text, and the empty node where nothing of their kind
stands. Every step takes one unit of `fuel`, of which there is enough for the whole text, and every
node inside another takes one unit of `room`.
-/

namespace CommentSearch.Yaml

/-- Where a node stands: directly in a block mapping, in a block sequence, as the key of a block
mapping, or within brackets. -/
inductive Context where
  | mappingValue
  | sequenceItem
  | blockKey
  | inFlow
deriving DecidableEq

mutual

/-- The node here. `parent` is the indentation of the block around it; `seek` tells whether it may
begin on a further line, `compact` whether a block collection may begin on this line. -/
def node (fuel room : Nat) (parent : Int) (context : Context) (seek compact : Bool) (c : Cursor) :
    Option (Node × Cursor) :=
  match fuel, room with
  | 0, _ => none
  | _, 0 => none
  | fuel + 1, room + 1 =>
    let start := if seek then c.pass true else c
    let newLine := start.line != c.line
    let block := (context = .mappingValue || context = .sequenceItem) && (newLine || compact)
    let inside := !newLine || parent < start.indent
    let flowIndent :=
      if context = .mappingValue ∨ context = .sequenceItem then parent + 1 else parent
    if inside then do
      if block then
        match ← sequence fuel room start.column [] start with
        | (.empty, _) =>
          match ← mapping fuel room start.column flowIndent [] start with
          | (.empty, _) => content fuel room flowIndent context start
          | found => return found
        | found => return found
      else content fuel room flowIndent context start
    else if context = .mappingValue && (start.indent : Int) = parent && block then
      sequence fuel room start.column [] start
    else some (.empty, start)

/-- The flow collection or scalar here. -/
def content (fuel room : Nat) (flowIndent : Int) (context : Context) (c : Cursor) :
    Option (Node × Cursor) :=
  match fuel with
  | 0 => none
  | fuel + 1 =>
    match c.rest with
    | '[' :: _ => flowList fuel room flowIndent [] true c.next
    | '\x7b' :: _ => flowMapping fuel room flowIndent [] true c.next
    | _ => do
      match ← quoted c with
      | (.empty, _) =>
        if c.rest.head?.any ['&', '*', '!', '|', '>'].contains then none
        else plain (context = .inFlow) flowIndent c
      | found => return found

/-- The items of a block sequence whose hyphens stand at column `indent`, after the items already
read. -/
def sequence (fuel room : Nat) (indent : Nat) (done : List Node) (c : Cursor) :
    Option (Node × Cursor) :=
  match fuel with
  | 0 => none
  | fuel + 1 =>
    let finished := some (if done.isEmpty then .empty else .list done, c)
    if c.tabbed ∧ !c.rest.isEmpty then if done.isEmpty then finished else none
    else match c.rest with
    | '-' :: cs =>
      if !startsWithGap cs then finished
      else
        let start := c.next.pass true
        if start.line ≠ c.line ∧ start.indent ≤ indent then
          sequence fuel room indent (done ++ [.empty]) start
        else do
          let (item, after) ← node fuel room indent .sequenceItem false true start
          let done := done ++ [item]
          let rest := after.pass true
          if rest.rest.isEmpty then return (.list done, rest)
          else if rest.line = start.line ∨ indent < rest.indent then none
          else if rest.indent < indent then return (.list done, rest)
          else sequence fuel room indent done rest
    | _ => finished

/-- The pairs of a block mapping whose keys stand at column `indent`, after the pairs already read.
Where the first key turns out to be no key, it is the node itself. -/
def mapping (fuel room : Nat) (indent : Nat) (flowIndent : Int) (done : List (Node × Node))
    (c : Cursor) : Option (Node × Cursor) :=
  match fuel with
  | 0 => none
  | fuel + 1 =>
    let finished := some (if done.isEmpty then .empty else .mapping done, c)
    if c.tabbed ∧ !c.rest.isEmpty then if done.isEmpty then finished else none
    else match c.rest with
    | [] => finished
    | ch :: cs =>
      if (ch = '?' ∨ ch = ':') ∧ startsWithGap cs then none
      else do
        match ← node fuel room flowIndent .blockKey false true c with
        | (.empty, _) => finished
        | (key, after) =>
          let colon := after.passSpaces
          if after.line ≠ c.line then
            if done.isEmpty then return (key, after) else none
          else match colon.rest with
          | ':' :: cs =>
            if !startsWithGap cs then none
            else
              let (value, after) ← node fuel room indent .mappingValue true false colon.next
              let done := done ++ [(key, value)]
              let rest := after.pass true
              if rest.rest.isEmpty then return (.mapping done, rest)
              else if rest.line = c.line ∨ indent < rest.indent then none
              else if rest.indent < indent then return (.mapping done, rest)
              else mapping fuel room indent flowIndent done rest
          | _ => if done.isEmpty then return (key, colon) else none

/-- An entry within brackets: its first node, and the second if a colon follows. -/
def flowEntry (fuel room : Nat) (indent : Int) (c : Cursor) :
    Option (Node × Option Node × Cursor) :=
  match fuel with
  | 0 => none
  | fuel + 1 => do
    let (key, after) ← node fuel room indent .inFlow false true c
    let after := after.pass true
    match after.rest with
    | ':' :: _ =>
      if after.line = c.line then
        let (value, after) ← node fuel room indent .inFlow false true (after.next.pass true)
        return (key, some value, after.pass true)
      else return (key, none, after)
    | _ => return (key, none, after)

/-- The items of a list in brackets after those already read; `ready` tells whether one may
follow here. -/
def flowList (fuel room : Nat) (indent : Int) (done : List Node) (ready : Bool) (c : Cursor) :
    Option (Node × Cursor) :=
  match fuel with
  | 0 => none
  | fuel + 1 =>
    let c := c.pass true
    match c.rest with
    | [] => none
    | ']' :: _ => some (.list done, c.next)
    | ch :: cs => do
      if !ready ∨ ch = ',' ∨ (ch = '?' ∧ startsWithGap cs) then none
      let (key, value?, after) ← flowEntry fuel room indent c
      let item := match value? with
        | some value => .mapping [(key, value)]
        | none => key
      match after.rest with
      | ',' :: _ => flowList fuel room indent (done ++ [item]) true after.next
      | _ => flowList fuel room indent (done ++ [item]) false after

/-- The pairs of a mapping in braces after those already read. -/
def flowMapping (fuel room : Nat) (indent : Int) (done : List (Node × Node)) (ready : Bool)
    (c : Cursor) : Option (Node × Cursor) :=
  match fuel with
  | 0 => none
  | fuel + 1 =>
    let c := c.pass true
    match c.rest with
    | [] => none
    | '\x7d' :: _ => some (.mapping done, c.next)
    | ch :: cs => do
      if !ready ∨ ch = ',' ∨ (ch = '?' ∧ startsWithGap cs) then none
      let (key, value?, after) ← flowEntry fuel room indent c
      let done := done ++ [(key, value?.getD .empty)]
      match after.rest with
      | ',' :: _ => flowMapping fuel room indent done true after.next
      | _ => flowMapping fuel room indent done false after

end

/-! ### Documents -/

/-- The place of the first node: after the byte order mark, gaps and one header line. -/
def firstNode (s : String) : Cursor :=
  let cs := match s.toList with
    | '\ufeff' :: cs => cs
    | cs => cs
  let indent := (cs.takeWhile (· = ' ')).length
  let start : Cursor := { rest := cs.drop indent ++ ['\n'], column := indent, indent := indent }
  let c := start.pass true
  match c.rest with
  | '-' :: '-' :: '-' :: _ => if c.indent = 0 then c.next.next.next.pass true else c
  | _ => c

/-- The greatest number of nodes inside one another. -/
def deepestNesting : Nat := 100

/-- The one document of a text; the empty node if the text is empty. -/
def document? (s : String) : Option Node := do
  if s.toList.any (· = '\x00') then none
  let c := firstNode s
  let fuel := 8 * (s.length + 8)
  let (document, after) ← node fuel deepestNesting (c.indent - 1) .mappingValue false true c
  let rest := after.pass true
  let rest :=
    if rest.atDocumentMark ∧ rest.rest.head? = some '.' then rest.next.next.next.pass true else rest
  if rest.rest.isEmpty then return document else none

end CommentSearch.Yaml
