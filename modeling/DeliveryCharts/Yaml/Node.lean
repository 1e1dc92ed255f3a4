import DeliveryCharts.Yaml.Cursor

/-!
The nodes of a YAML document, before its scalars are given types and its aliases are followed.
-/

namespace DeliveryCharts.Yaml

/-- What may stand in front of a node. The tag is given in full. -/
structure Properties where
  anchor : Option String := none
  tag : Option String := none
  deriving DecidableEq, Repr, Inhabited

inductive Node where
  | scalar (properties : Properties) (isPlain : Bool) (text : String)
  | seq (properties : Properties) (items : List Node)
  | map (properties : Properties) (entries : List (Node × Node))
  | reference (name : String)
  deriving Inhabited

namespace Properties

def isGiven (p : Properties) : Bool := p.anchor.isSome || p.tag.isSome

/-- Both together; nothing may be given twice. -/
def and? (p q : Properties) : Option Properties :=
  if (p.anchor.isSome && q.anchor.isSome) || (p.tag.isSome && q.tag.isSome) then none
  else some ⟨p.anchor <|> q.anchor, p.tag <|> q.tag⟩

end Properties

namespace Node

/-- A node that is left out. -/
def missing (p : Properties) : Node := scalar p true ""

/-- The node behind its properties; an alias has none. The exclamation mark alone, as a tag, lets a
scalar be read as a plain one. -/
def attach? (p : Properties) : Node → Option Node
  | scalar _ isPlain text =>
    if p.tag = some "!" then some (scalar { p with tag := none } isPlain text)
    else some (scalar p isPlain text)
  | seq _ items => some (seq p items)
  | map _ entries => some (map p entries)
  | reference name => if p.isGiven then none else some (reference name)

mutual

/-- The number of nodes, with the ends of collections counted too. -/
def events : Node → Nat
  | scalar _ _ _ => 1
  | reference _ => 1
  | seq _ items => 2 + eventsOfItems items
  | map _ entries => 2 + eventsOfEntries entries

def eventsOfItems : List Node → Nat
  | [] => 0
  | n :: ns => events n + eventsOfItems ns

def eventsOfEntries : List (Node × Node) → Nat
  | [] => 0
  | (k, v) :: es => events k + events v + eventsOfEntries es

end

end Node

end DeliveryCharts.Yaml
