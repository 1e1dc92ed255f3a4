import DeliveryCharts.Yaml.Reader
import DeliveryCharts.Yaml.Value

/-!
The documents of a YAML text. Only the first may start without three hyphens, and three points or
the next document's hyphens end one.
-/

namespace DeliveryCharts.Yaml

/-- Tabs, breaks and printable characters; no text may hold any other. -/
def isAllowed (c : Char) : Bool :=
  let n := c.toNat
  n == 9 || n == 10 || n == 13 || (0x20 ≤ n && n ≤ 0x7E) || n == 0x85 ||
    (0xA0 ≤ n && n ≤ 0xFFFD) || 0x10000 ≤ n

/-- The directives of a document that have been read: its version, and handles of its own. -/
structure Directives where
  hasVersion : Bool := false
  handles : Handles := []

def Directives.allHandles (d : Directives) : Handles :=
  d.handles ++ defaultHandles.filter fun h ↦ (d.handles.lookup h.1).isNone

/-- Up to nine digits of a version, read as a number. -/
def versionNumber (cs : List Char) : Except Fault (Nat × List Char) :=
  let ds := cs.takeWhile Text.isDigit
  match Text.readUnsigned? 10 ds with
  | some n => if ds.length ≤ 9 then .ok (n, cs.drop ds.length) else .error .malformed
  | none => .error .malformed

/-- A handle in a directive: one exclamation mark, or two around a name. -/
def directiveHandle (cs : List Char) : Except Fault (String × List Char) :=
  match cs with
  | '!' :: r =>
    let word := r.takeWhile isNameChar
    match r.dropWhile isNameChar with
    | '!' :: r => .ok (.ofList ('!' :: word ++ ['!']), r)
    | r => if word.isEmpty then .ok ("!", r) else .error .malformed
  | _ => .error .malformed

/-- What a directive says, behind its percent sign. -/
def directive (d : Directives) (cs : List Char) : Except Fault (Directives × List Char) := do
  let name := cs.takeWhile isNameChar
  let rest := cs.drop name.length
  if name.isEmpty || !endsWord rest then throw .malformed
  if name = ['Y', 'A', 'M', 'L'] then
    let (major, rest) ← versionNumber (rest.dropWhile isSpaceOrTab)
    match rest with
    | '.' :: rest =>
      let (minor, rest) ← versionNumber rest
      if d.hasVersion || major ≠ 1 || (minor ≠ 1 && minor ≠ 2) then throw .malformed
      return ({ d with hasVersion := true }, rest)
    | _ => throw .malformed
  else if name = ['T', 'A', 'G'] then
    let (handle, rest) ← directiveHandle (rest.dropWhile isSpaceOrTab)
    if rest.isEmpty || !isSpaceOrTab (rest.headD ' ') then throw .malformed
    let rest := rest.dropWhile isSpaceOrTab
    let (text, rest) ← tagText true rest.length rest
    if text.isEmpty || !endsWord rest || (d.handles.lookup handle).isSome then throw .malformed
    return ({ d with handles := (handle, .ofList text) :: d.handles }, rest)
  else throw .malformed

/-- The directives in front of a document. -/
def directives : Nat → Directives → Cursor → Except Fault (Directives × Cursor)
  | 0, d, c => .ok (d, c)
  | fuel + 1, d, c =>
    if !c.atDirective then .ok (d, c)
    else do
      let (d, rest) ← directive d (c.rest.drop 1)
      let c := (c.advance (c.rest.length - rest.length)).spaces isSpaceOrTab
      let c := c.dropComment
      if !c.rest.isEmpty && !startsBreak c.rest then throw .malformed
      directives fuel d (c.unfresh.skip false)

/-- Past the points that end documents. -/
def skipPoints : Nat → Cursor → Cursor
  | 0, c => c
  | fuel + 1, c =>
    if c.atMarker && c.rest.head? = some '.' then
      skipPoints fuel ((c.advance 3).unfresh.skip false)
    else c

/-- A node needs at most this many steps. -/
def fuelFor (c : Cursor) : Nat := 4 * c.rest.length + 16

/-- What stands behind the root of a document cannot even be cut into words. -/
def strays (c : Cursor) : Bool :=
  let failed := fun r : Except Fault Cursor ↦ match r with
    | .error _ => true
    | .ok _ => false
  if c.atEnd then false
  else
    match c.rest with
    | [] => false
    | '%' :: _ => !c.atDirective || failed ((directives 1 {} c).map Prod.snd)
    | '"' :: _ => failed ((quoted true (c.advance 1)).map Prod.snd)
    | '\'' :: _ => failed ((quoted false (c.advance 1)).map Prod.snd)
    | '&' :: _ => failed ((readName (c.advance 1)).map Prod.snd)
    | '*' :: _ => failed ((readName (c.advance 1)).map Prod.snd)
    | '!' :: _ => failed ((readTag defaultHandles false c).map Prod.snd)
    | '|' :: _ => failed ((block true 0 (c.advance 1)).map Prod.snd)
    | '>' :: _ => failed ((block false 0 (c.advance 1)).map Prod.snd)
    | ch :: r => ch ∈ ['@', '`', '\t'] || (ch ∈ ['-', '?', ':'] && endsWord r && !c.fresh)

/-- A document whose content starts here, and what follows it. -/
def document (handles : Handles) (c : Cursor) : Except Fault (Graph × Cursor) := do
  let (node, c) ← blockNode handles (fuelFor c) 0 false c
  let c := c.skip false
  if strays c then throw .malformed
  return (← Graph.ofNode node, c)

/-- The document here, and what follows it; nothing at the end of the text. -/
def nextDocument (isFirst : Bool) (c : Cursor) : Except Fault (Option (Graph × Cursor)) := do
  let c := c.skip false
  let c := if isFirst then c else skipPoints c.rest.length c
  if c.rest.isEmpty then return none
  let (d, c) ← directives c.rest.length {} c
  if c.atMarker && c.rest.head? = some '-' then
    return some (← document d.allHandles ((c.advance 3).unfresh.skip false))
  else if isFirst && !d.hasVersion && d.handles.isEmpty && !c.atMarker then
    return some (← document d.allHandles c)
  else throw .malformed

/-- The documents from here on, up to the first that is malformed. -/
def documentsFrom : Nat → Bool → Cursor → List (Except Fault Graph)
  | 0, _, _ => []
  | fuel + 1, isFirst, c =>
    match nextDocument isFirst c with
    | .error e => [.error e]
    | .ok none => []
    | .ok (some (g, c)) => .ok g :: documentsFrom fuel false c

/-- A byte order mark is passed over, but takes up a column. -/
def Cursor.ofText (cs : List Char) : Cursor :=
  let c : Cursor := { rest := cs }
  if cs.head? = some '\uFEFF' then c.advance 1 else c

/-- A text without documents is one empty document. -/
def documents (s : String) : List (Except Fault Graph) :=
  if !s.toList.all isAllowed then [.error .malformed]
  else
    match documentsFrom (s.length + 1) true (.ofText s.toList) with
    | [] => [Graph.ofNode (.missing {})]
    | ds => ds

/-- The trees of a stream, up to the first document that has none. -/
def stream (s : String) : List (Except Fault Json) := (documents s).map (· >>= Graph.toJson)

/-- The only document of a text. -/
def single (s : String) : Except Fault Graph :=
  match documents s with
  | [d] => d
  | [] => .error .noDocument
  | .error e :: _ => .error e
  | _ => .error .manyDocuments

def parse (s : String) : Except Fault Json := single s >>= Graph.toJson

end DeliveryCharts.Yaml
