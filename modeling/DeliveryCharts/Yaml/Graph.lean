import DeliveryCharts.Yaml.Node

/-!
The nodes of a document with their anchors numbered, so that an alias points at a node.
-/

namespace DeliveryCharts.Yaml

inductive Tree where
  | scalar (tag : Option String) (isPlain : Bool) (text : String)
  | seq (tag : Option String) (items : List Tree)
  | map (tag : Option String) (entries : List (Tree × Tree))
  | reference (number : Nat)
  deriving Inhabited

/-- A document: its root, and the nodes with an anchor in the order of the text. Numbers may be used
again, and then the last node with the number counts. -/
structure Graph where
  root : Tree
  anchored : List (Nat × Tree)
  /-- The number of nodes, with the ends of collections counted too. -/
  size : Nat

namespace Graph

def target? (g : Graph) (number : Nat) : Option Tree := g.anchored.reverse.lookup number

/-- Anchors seen so far, each name once. -/
abbrev Names := List (String × Nat)

/-- A new anchor is numbered by how many names there are; a name that is used again keeps them. -/
def Names.add (names : Names) (name : String) : Names :=
  (name, names.length) :: names.filter (·.1 ≠ name)

def Names.enter (names : Names) (p : Properties) : Names :=
  match p.anchor with
  | none => names
  | some name => names.add name

/-- The entry of a node, if it has an anchor; `names` are those before it. -/
def entry (names : Names) (p : Properties) (t : Tree) : List (Nat × Tree) :=
  match p.anchor with
  | none => []
  | some _ => [(names.length, t)]

mutual

def number (names : Names) : Node → Except Fault (Tree × Names × List (Nat × Tree))
  | .scalar p isPlain text =>
    let t := .scalar p.tag isPlain text
    .ok (t, names.enter p, entry names p t)
  | .seq p items => do
    let (items, after, anchored) ← numberItems (names.enter p) items
    let t := .seq p.tag items
    return (t, after, entry names p t ++ anchored)
  | .map p entries => do
    let (entries, after, anchored) ← numberEntries (names.enter p) entries
    let t := .map p.tag entries
    return (t, after, entry names p t ++ anchored)
  | .reference name =>
    match names.lookup name with
    | some n => .ok (.reference n, names, [])
    | none => .error .unknownAnchor

def numberItems (names : Names) : List Node →
    Except Fault (List Tree × Names × List (Nat × Tree))
  | [] => .ok ([], names, [])
  | n :: ns => do
    let (t, names, anchored) ← number names n
    let (ts, names, more) ← numberItems names ns
    return (t :: ts, names, anchored ++ more)

def numberEntries (names : Names) : List (Node × Node) →
    Except Fault (List (Tree × Tree) × Names × List (Nat × Tree))
  | [] => .ok ([], names, [])
  | (k, v) :: es => do
    let (key, names, ofKey) ← number names k
    let (value, names, ofValue) ← number names v
    let (ts, names, more) ← numberEntries names es
    return ((key, value) :: ts, names, ofKey ++ ofValue ++ more)

end

def ofNode (n : Node) : Except Fault Graph := do
  let (root, _, anchored) ← number [] n
  return ⟨root, anchored, n.events⟩

end Graph

end DeliveryCharts.Yaml
