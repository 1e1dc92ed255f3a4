import DeliveryCharts.Yaml.Node
import DeliveryCharts.Yaml.Scan

/-!
Reading the nodes of a YAML text by recursive descent. A block collection is known by the column of
its entries, `margin - 1`; what stands to the left of it ends it, and a node inside it stands at
`margin` or to the right.
-/

namespace DeliveryCharts.Yaml

/-- Tag handles and what they stand for. -/
abbrev Handles := List (String × String)

def defaultHandles : Handles := [("!", "!"), ("!!", "tag:yaml.org,2002:")]

/-- The name of an anchor or an alias, behind its indicator. -/
def readName (c : Cursor) : Except Fault (String × Cursor) :=
  let name := c.rest.takeWhile isNameChar
  let c := (c.advance name.length).unfresh
  let ends := match c.rest with
    | [] => true
    | d :: _ => isGap d || d ∈ ['?', ':', ',', ']', '\x7d', '%', '@', '`']
  if name.isEmpty || !ends then .error .malformed else .ok (.ofList name, c)

def isTagChar (verbatim : Bool) (c : Char) : Bool :=
  isNameChar c ||
    c ∈ [';', '/', '?', ':', '@', '&', '=', '+', '$', '.', '!', '~', '*', '\'', '(', ')'] ||
    (verbatim && c ∈ [',', '[', ']'])

/-- The characters of a tag, with escaped bytes read as characters of UTF-8 below U+0080. -/
def tagText (verbatim : Bool) : Nat → List Char → Except Fault (List Char × List Char)
  | 0, cs => .ok ([], cs)
  | _, [] => .ok ([], [])
  | fuel + 1, '%' :: a :: b :: cs =>
    match Text.readUnsigned? 16 [a, b] with
    | some n =>
      if n < 0x80 then (tagText verbatim fuel cs).map fun p ↦ (Char.ofNat n :: p.1, p.2)
      else .error .malformed
    | none => .error .malformed
  | fuel + 1, c :: cs =>
    if c == '%' then .error .malformed
    else if isTagChar verbatim c then (tagText verbatim fuel cs).map fun p ↦ (c :: p.1, p.2)
    else .ok ([], c :: cs)

/-- A tag in full at the head of a text, and what follows it. -/
def tagAt (handles : Handles) (cs : List Char) : Except Fault (String × List Char) :=
  match cs with
  | '!' :: '<' :: r => do
    let (text, r) ← tagText true r.length r
    match r with
    | '>' :: r => if text.isEmpty then throw .malformed else return (.ofList text, r)
    | _ => throw .malformed
  | '!' :: r => do
    let word := r.takeWhile isNameChar
    match r.dropWhile isNameChar with
    | '!' :: r => do
      let (text, r) ← tagText false r.length r
      if text.isEmpty then throw .malformed
      match handles.lookup (.ofList ('!' :: word ++ ['!'])) with
      | none => throw .malformed
      | some full => return (full ++ .ofList text, r)
    | _ => do
      let (text, r) ← tagText false r.length r
      if text.isEmpty then return ("!", r)
      match handles.lookup "!" with
      | none => throw .malformed
      | some full => return (full ++ .ofList text, r)
  | _ => throw .malformed

/-- A tag, which ends where a word does; in brackets, a comma may follow. -/
def readTag (handles : Handles) (inFlow : Bool) (c : Cursor) : Except Fault (String × Cursor) := do
  let (tag, rest) ← tagAt handles c.rest
  let c := (c.advance (c.rest.length - rest.length)).unfresh
  match rest with
  | [] => return (tag, c)
  | d :: _ => if isGap d || (inFlow && d == ',') then return (tag, c) else throw .malformed

/-- What stands in front of a node. The properties on the line of the content are apart from those
on the lines above: the content may be a key, whose properties they are then. -/
structure Front where
  above : Properties := {}
  beside : Properties := {}
  /-- The first property on the line of the content, or the content. -/
  start : Cursor
  /-- The content. -/
  cursor : Cursor

def Front.isGiven (f : Front) : Bool := f.above.isGiven || f.beside.isGiven

def orFault (o : Option α) : Except Fault α :=
  match o with
  | some a => .ok a
  | none => .error .malformed

/-- Behind one more property, the next token being at `next`. -/
def Front.add (f : Front) (inFlow : Bool) (p : Properties) (next : Cursor) :
    Except Fault Front := do
  let beside ← orFault (f.beside.and? p)
  if inFlow || next.line == f.start.line then return { f with beside, cursor := next }
  else return ⟨← orFault (f.above.and? beside), {}, next, next⟩

/-- The properties from here on, up to a token that `outside` holds of. -/
def readFront (handles : Handles) (inFlow : Bool) (outside : Cursor → Bool) (c : Cursor) :
    Except Fault Front := go 5 { start := c, cursor := c }
where
  go : Nat → Front → Except Fault Front
    | 0, f => .ok f
    | fuel + 1, f =>
      if f.cursor.atClose || outside f.cursor then .ok f
      else
        match f.cursor.rest with
        | '&' :: _ => do
          let (name, c) ← readName (f.cursor.advance 1)
          go fuel (← f.add inFlow { anchor := some name } (c.skip inFlow))
        | '!' :: _ => do
          let (tag, c) ← readTag handles inFlow f.cursor
          go fuel (← f.add inFlow { tag := some tag } (c.skip inFlow))
        | _ => .ok f

/-- A plain scalar may start with this text. -/
def startsPlain (inFlow : Bool) : List Char → Bool
  | [] => false
  | c :: r =>
    if isGap c then false
    else if c == '-' then !endsWord r
    else if c == '?' || c == ':' then !inFlow && !endsWord r
    else c ∉ [',', '[', ']', '\x7b', '\x7d', '#', '&', '*', '!', '|', '>', '\'', '"', '%', '@', '`']

/-- The hyphen, question mark or colon of a block stands here alone. -/
def atIndicator (ch : Char) (c : Cursor) : Bool :=
  match c.rest with
  | d :: r => d == ch && endsWord r
  | [] => false

/-- The colon behind a key: in brackets any, else one that ends a word. -/
def atColon (inFlow : Bool) (c : Cursor) : Bool :=
  match c.rest with
  | ':' :: r => inFlow || endsWord r
  | _ => false

/-- A key ends on the line where it starts, at most 1024 characters behind its start. -/
def isKeyFrom (start colon : Cursor) : Bool :=
  colon.line == start.line && colon.index ≤ start.index + 1024

/-- The value of a pair in brackets, or the key behind a question mark, is left out here. -/
def atFlowEnd (c : Cursor) : Bool := c.rest.head?.any (· ∈ [',', ']', '\x7d'])

mutual

/-- An alias, a scalar or a collection in brackets. -/
def flowContent (handles : Handles) : Nat → Nat → Bool → Cursor → Except Fault (Node × Cursor)
  | 0, _, _, _ => .error .malformed
  | fuel + 1, margin, inFlow, c =>
    match c.rest with
    | '*' :: _ => (readName (c.advance 1)).map fun r ↦ (.reference r.1, r.2)
    | '"' :: _ => (quoted true (c.advance 1)).map fun r ↦ (.scalar {} false (.ofList r.1), r.2)
    | '\'' :: _ => (quoted false (c.advance 1)).map fun r ↦ (.scalar {} false (.ofList r.1), r.2)
    | '[' :: _ =>
      (flowItems handles fuel margin true (c.advance 1)).map fun r ↦ (.seq {} r.1, r.2.unfresh)
    | '\x7b' :: _ =>
      (flowEntries handles fuel margin true (c.advance 1)).map fun r ↦ (.map {} r.1, r.2.unfresh)
    | _ =>
      if !c.atMarker && startsPlain inFlow c.rest then
        (plain inFlow margin c).map fun r ↦ (.scalar {} true (.ofList r.1), r.2)
      else .error .malformed

/-- A node in brackets. Properties alone stand for a node that is left out. -/
def flowNode (handles : Handles) : Nat → Nat → Cursor → Except Fault (Node × Cursor)
  | 0, _, _ => .error .malformed
  | fuel + 1, margin, c => do
    let f ← readFront handles true (fun _ ↦ false) c
    let c := f.cursor
    if f.isGiven && (atColon true c || atFlowEnd c) then return (.missing f.beside, c)
    let (node, c) ← flowContent handles fuel margin true c
    return (← orFault (node.attach? f.beside), c)

/-- A pair in brackets whose key starts at the cursor: a key with or without a value. The flag tells
whether there is a colon or a question mark. -/
def flowPair (handles : Handles) :
    Nat → Nat → Cursor → Except Fault ((Bool × Node × Node) × Cursor)
  | 0, _, _ => .error .malformed
  | fuel + 1, margin, c => do
    if c.atMarker then throw .malformed
    let explicit := c.rest.head? = some '?'
    let start := if explicit then (c.advance 1).skip true else c
    let (key, next) ←
      if explicit && (atColon true start || atFlowEnd start) then pure (Node.missing {}, start)
      else flowNode handles fuel margin start
    let next := next.skip true
    if atColon true next then
      if !explicit && !isKeyFrom c next then throw .malformed
      let next := (next.advance 1).skip true
      let (value, next) ←
        if atFlowEnd next then pure (Node.missing {}, next) else flowNode handles fuel margin next
      return ((true, key, value), next)
    else return ((explicit, key, .missing {}), next)

/-- The items behind a square bracket, or behind the first item. -/
def flowItems (handles : Handles) : Nat → Nat → Bool → Cursor → Except Fault (List Node × Cursor)
  | 0, _, _, _ => .error .malformed
  | fuel + 1, margin, first, c => do
    let c := c.skip true
    if c.rest.head? = some ']' then return ([], c.advance 1)
    if !first && c.rest.head? ≠ some ',' then throw .malformed
    let c := if first then c else (c.advance 1).skip true
    if c.rest.head? = some ']' then return ([], c.advance 1)
    let ((isPair, key, value), c) ← flowPair handles fuel margin c
    let (items, c) ← flowItems handles fuel margin false c
    return ((if isPair then Node.map {} [(key, value)] else key) :: items, c)

/-- The entries behind a curly bracket, or behind the first entry. -/
def flowEntries (handles : Handles) :
    Nat → Nat → Bool → Cursor → Except Fault (List (Node × Node) × Cursor)
  | 0, _, _, _ => .error .malformed
  | fuel + 1, margin, first, c => do
    let c := c.skip true
    if c.rest.head? = some '\x7d' then return ([], c.advance 1)
    if !first && c.rest.head? ≠ some ',' then throw .malformed
    let c := if first then c else (c.advance 1).skip true
    if c.rest.head? = some '\x7d' then return ([], c.advance 1)
    let ((_, key, value), c) ← flowPair handles fuel margin c
    let (entries, c) ← flowEntries handles fuel margin false c
    return ((key, value) :: entries, c)

end

/-- The token belongs to a collection further out: it stands left of the margin, and is neither a
hyphen where the hyphens of an unindented list may stand, nor a block scalar at the keys' column. -/
def isOutside (margin : Nat) (unindented : Bool) (c : Cursor) : Bool :=
  c.col < margin && !(c.col + 1 == margin && unindented && atIndicator '-' c) &&
    !(c.col + 1 == margin && c.rest.head?.any (· ∈ ['|', '>']))

mutual

/-- A node inside a block collection whose entries stand at `margin - 1`; its first token is at the
cursor. An `unindented` list may have its hyphens at `margin - 1`. -/
def blockNode (handles : Handles) : Nat → Nat → Bool → Cursor → Except Fault (Node × Cursor)
  | 0, _, _, _ => .error .malformed
  | fuel + 1, margin, unindented, c => do
    let f ← readFront handles false (isOutside margin unindented) c
    let properties := orFault (f.above.and? f.beside)
    let c := f.cursor
    if c.atClose || isOutside margin unindented c then return (.missing (← properties), c)
    if atIndicator '-' c then
      if !c.fresh then throw .malformed
      let (items, c) ← blockItems handles fuel margin c.col c
      return (.seq (← properties) items, c)
    if atIndicator '?' c then
      if !c.fresh then throw .malformed
      let (entries, c) ← blockEntries handles fuel c.col c
      return (.map (← properties) entries, c)
    if c.rest.head? = some '|' || c.rest.head? = some '>' then
      let (text, next) ← block (c.rest.head? = some '|') margin (c.advance 1)
      let node ← orFault ((Node.scalar {} false (.ofList text)).attach? (← properties))
      return (node, next)
    let (content, next) ←
      if f.beside.isGiven && atColon false c then pure (Node.missing {}, c)
      else flowContent handles fuel margin false c
    let colon := next.skip false
    if !atColon false colon then return (← orFault (content.attach? (← properties)), next)
    if f.start.fresh && isKeyFrom f.start colon then
      let key ← orFault (content.attach? f.beside)
      let (value, next) ← blockValue handles fuel (f.start.col + 1) (colon.advance 1).unfresh
      let (entries, next) ← blockEntries handles fuel f.start.col next
      return (.map f.above ((key, value) :: entries), next)
    -- a colon that starts a line belongs to something else
    if colon.fresh then return (← orFault (content.attach? (← properties)), next)
    throw .malformed

/-- The value behind a colon, in a map whose keys stand at `margin - 1`. -/
def blockValue (handles : Handles) : Nat → Nat → Cursor → Except Fault (Node × Cursor)
  | 0, _, _ => .error .malformed
  | fuel + 1, margin, c => blockNode handles fuel margin true (c.skip false)

/-- The entries of a list at the column `col`, in a collection whose nodes stand at `margin`. -/
def blockItems (handles : Handles) :
    Nat → Nat → Nat → Cursor → Except Fault (List Node × Cursor)
  | 0, _, _, _ => .error .malformed
  | fuel + 1, margin, col, c => do
    let c := c.skip false
    if c.atClose || c.col < col then return ([], c)
    -- an unindented list ends at the next key
    if !atIndicator '-' c && col < margin then return ([], c)
    if c.col ≠ col || !atIndicator '-' c || !c.fresh then throw .malformed
    let next := ({ c.advance 1 with fresh := true }).skip false
    let (item, next) ← blockNode handles fuel (col + 1) false next
    let (items, next) ← blockItems handles fuel margin col next
    return (item :: items, next)

/-- The entries of a map whose keys stand at the column `col`. -/
def blockEntries (handles : Handles) :
    Nat → Nat → Cursor → Except Fault (List (Node × Node) × Cursor)
  | 0, _, _ => .error .malformed
  | fuel + 1, col, c => do
    let c := c.skip false
    if c.atClose || c.col < col then return ([], c)
    if c.col ≠ col || !c.fresh then throw .malformed
    if atIndicator '?' c then
      let next := ({ c.advance 1 with fresh := true }).skip false
      let (key, next) ← blockNode handles fuel (col + 1) true next
      let next := next.skip false
      let (value, next) ←
        if !next.atClose && next.col == col && atIndicator ':' next then
          if !next.fresh then throw .malformed
          blockValue handles fuel (col + 1) { next.advance 1 with fresh := true }
        else pure (Node.missing {}, next)
      let (entries, next) ← blockEntries handles fuel col next
      return ((key, value) :: entries, next)
    else
      let f ← readFront handles false (fun _ ↦ false) c
      if f.start.index ≠ c.index then throw .malformed
      let (content, next) ←
        if f.beside.isGiven && atColon false f.cursor then pure (Node.missing {}, f.cursor)
        else flowContent handles fuel (col + 1) false f.cursor
      let key ← orFault (content.attach? f.beside)
      let colon := next.skip false
      if !atColon false colon || !isKeyFrom c colon then throw .malformed
      let (value, next) ← blockValue handles fuel (col + 1) (colon.advance 1).unfresh
      let (entries, next) ← blockEntries handles fuel col next
      return ((key, value) :: entries, next)

end

end DeliveryCharts.Yaml
