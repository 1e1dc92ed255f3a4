import DeliveryCharts.Coerce
import DeliveryCharts.Yaml.Graph

/-!
The JSON tree of a YAML document. A plain scalar without a tag is null, a boolean or a number where
it is written like one; keys are always texts.
-/

namespace DeliveryCharts.Yaml

open Decimal (Binary64)

def isNullWord (s : String) : Bool := s ∈ ["null", "Null", "NULL", "~"]

def boolWord? (s : String) : Option Bool :=
  if s ∈ ["true", "True", "TRUE"] then some true
  else if s ∈ ["false", "False", "FALSE"] then some false
  else none

/-- Zeros in front of more digits: not a number. -/
def hasLeadingZero (cs : List Char) : Bool :=
  let digits := match cs with
    | '-' :: r => r
    | '+' :: r => r
    | r => r
  match digits with
  | '0' :: d :: r => (d :: r).all Text.isDigit
  | _ => false

/-- Digits behind the mark of their radix. -/
def readMarked? : List Char → Option Nat
  | '0' :: 'x' :: r => Text.readUnsigned? 16 r
  | '0' :: 'o' :: r => Text.readUnsigned? 8 r
  | '0' :: 'b' :: r => Text.readUnsigned? 2 r
  | _ => none

/-- An integer in decimal, or hexadecimal, octal or binary behind `0x`, `0o` or `0b`. -/
def readInteger? (cs : List Char) : Option Int :=
  let (negative, r) : Bool × List Char :=
    match cs with
    | '-' :: r => (true, r)
    | '+' :: r => (false, r)
    | r => (false, r)
  let magnitude? :=
    match readMarked? r with
    | some n => some n
    | none => if hasLeadingZero cs then none else Text.readUnsigned? 10 r
  magnitude?.map fun n ↦ if negative then -(n : Int) else n

/-- A number as a plain scalar writes it. An integer that needs more than 64 bits and no more than
128 is a fault. -/
def integer? (cs : List Char) : Except Fault (Option Int) :=
  match readInteger? cs with
  | none => .ok none
  | some z =>
    if Width.signed 64 z || Width.unsigned 64 z then .ok (some z)
    else if Width.signed 128 z || Width.unsigned 128 z then .error .outOfRange
    else .ok none

/-- The words for infinity and for no number have no JSON, and are read as null. -/
def real? (cs : List Char) : Option Json :=
  let unsigned := match cs with
    | '+' :: r => r
    | r => r
  if String.ofList unsigned ∈ [".inf", ".Inf", ".INF"] ∨
      String.ofList cs ∈ ["-.inf", "-.Inf", "-.INF", ".nan", ".NaN", ".NAN"] then some .null
  else if cs.head? = some '+' ∧ (unsigned.head? = some '+' ∨ unsigned.head? = some '-') then none
  else
    match Decimal.readDecimal? unsigned with
    | some x => if x.isFinite then some (.num (.float x)) else none
    | none => none

def plainValue (s : String) : Except Fault Json := do
  if s.isEmpty || isNullWord s then return .null
  if let some b := boolWord? s then return .bool b
  let cs := s.toList
  if let some z ← integer? cs then return .ofInt z
  if !hasLeadingZero cs then
    if let some v := real? cs then return v
  return .str s

/-- The tags whose scalars are read as they say. -/
def Tag.null : String := "tag:yaml.org,2002:null"
def Tag.bool : String := "tag:yaml.org,2002:bool"
def Tag.int : String := "tag:yaml.org,2002:int"
def Tag.float : String := "tag:yaml.org,2002:float"

def orBadTag : Option Json → Except Fault Json
  | some v => .ok v
  | none => .error .badTag

/-- Tags of the document's own are refused. -/
def checkTag : Option String → Except Fault Unit
  | none => .ok ()
  | some tag => if tag.toList.head? = some '!' then .error .badTag else .ok ()

def scalarValue (tag : Option String) (isPlain : Bool) (s : String) : Except Fault Json := do
  checkTag tag
  match tag with
  | none => if isPlain then plainValue s else .ok (.str s)
  | some tag =>
    if tag = Tag.bool then orBadTag ((boolWord? s).map .bool)
    else if tag = Tag.int then orBadTag ((← integer? s.toList).map .ofInt)
    else if tag = Tag.float then orBadTag (real? s.toList)
    else if tag = Tag.null then orBadTag (if isNullWord s then some .null else none)
    else .ok (.str s)

/-- The deepest nesting of collections. -/
def maxDepth : Nat := 128

/-- How often aliases may be followed in a document, for each of its nodes. -/
def maxRepetition : Nat := 100

namespace Graph

/-- Counts the aliases that have been followed. -/
abbrev Walk := StateT Nat (Except Fault)

def follow (g : Graph) : Tree → Walk Tree
  | .reference n => do
    let count ← get
    set (count + 1)
    if g.size * maxRepetition < count + 1 then throw .tooManyAliases
    match g.target? n with
    | some t => return t
    | none => throw .unknownAnchor
  | t => return t

def keyText (g : Graph) (t : Tree) : Walk String := do
  match ← g.follow t with
  | .scalar _ _ text => return text
  | _ => throw .badKey

/-- The value of a node with at most so many levels of collections in it. -/
def valueOf (g : Graph) : Nat → Tree → Walk Json
  | depth, t => do
    match ← g.follow t with
    | .scalar tag isPlain text => scalarValue tag isPlain text
    | .seq tag items => do
      checkTag tag
      match depth with
      | 0 => throw .tooDeep
      | depth + 1 => return .arr (← items.mapM (valueOf g depth))
    | .map tag entries => do
      checkTag tag
      match depth with
      | 0 => throw .tooDeep
      | depth + 1 =>
        let members ← entries.mapM fun e ↦ do
          let key ← g.keyText e.1
          return (key, ← valueOf g depth e.2)
        return .ofMembers members
    | .reference _ => throw .unknownAnchor

def toJson (g : Graph) : Except Fault Json :=
  ((g.valueOf maxDepth g.root).run 0).map Prod.fst

/-- The members of a document that is a map or empty, as far as their keys are wanted; the others
need not have a value. A wanted key may stand once only. -/
def pick (g : Graph) (wanted : List String) : Except Fault Members :=
  (walk.run 0).map Prod.fst
where
  walk : Walk Members := do
    match ← g.follow g.root with
    | .map _ entries =>
      entries.foldlM (fun ms e ↦ do
        let key ← g.keyText e.1
        if key ∉ wanted then return ms
        if ms.contains key then throw .badKey
        return ms.insert key (← g.valueOf (maxDepth - 1) e.2)) ([] : Members)
    | .scalar _ true "" => return []
    | _ => throw .badTag

end Graph

end DeliveryCharts.Yaml
