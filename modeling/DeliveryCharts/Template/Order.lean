import DeliveryCharts.Template.Value

/-!
Equality and order of template values. Booleans count as numbers where they are compared for
equality; sorting puts kinds apart first.
-/

namespace DeliveryCharts

open Decimal (Binary64)

/-- A key that orders numbers as the real line does, the negative zero before the positive. -/
def Decimal.Binary64.orderKey (x : Binary64) : Int :=
  let magnitude : Int := x.bits.toNat % twoPow 63
  if x.sign then -magnitude - 1 else magnitude

/-- The two zeros are equal, and a number that is none differs from all. -/
def Decimal.Binary64.same (x y : Binary64) : Bool :=
  !x.isNaN && !y.isNaN && (x.bits == y.bits || (x.isZero && y.isZero))

namespace Template.Value

/-- An integer or a boolean. -/
def int? : Value → Option Int
  | int z => some z
  | bool b => some (if b then 1 else 0)
  | _ => Option.none

def float? : Value → Option Binary64
  | float x => some x
  | v => v.int?.map Binary64.ofInt

def sameNumber : Value → Value → Bool
  | float x, float y => x.same y
  | float x, v => v.int?.isSome && x.toInt? == v.int?
  | v, float y => v.int?.isSome && y.toInt? == v.int?
  | v, w => v.int?.isSome && v.int? == w.int?

mutual

/-- The order of values, kinds first. -/
def compare : Value → Value → Ordering
  | text s _, text t _ => Ord.compare s t
  | list vs lazy, list ws lazy' =>
    if lazy == lazy' then compareItems vs ws else if lazy then .gt else .lt
  | map es _, map fs _ => compareEntries es fs
  | float x, float y => Ord.compare x.orderKey y.orderKey
  | float x, int z => Ord.compare x.orderKey (Binary64.ofInt z).orderKey
  | int z, float y => Ord.compare (Binary64.ofInt z).orderKey y.orderKey
  | int y, int z => Ord.compare y z
  | bool b, bool c => Ord.compare b.toNat c.toNat
  | handle g, handle h =>
    if g = h then .eq else Ord.compare g.label h.label
  | v, w => Ord.compare v.kind.rank w.kind.rank

def compareItems : List Value → List Value → Ordering
  | [], [] => .eq
  | [], _ :: _ => .lt
  | _ :: _, [] => .gt
  | v :: vs, w :: ws => (compare v w).then (compareItems vs ws)

def compareEntries : List (Value × Value) → List (Value × Value) → Ordering
  | [], [] => .eq
  | [], _ :: _ => .lt
  | _ :: _, [] => .gt
  | (k, v) :: es, (l, w) :: fs =>
    ((compare k l).then (compare v w)).then (compareEntries es fs)

end

mutual

def equal : Value → Value → Bool
  | undefined _, undefined _ => true
  | none, none => true
  | text s _, text t _ => s == t
  | list vs _, list ws _ => equalItems vs ws
  | map es _, map fs _ => equalEntries es fs
  | handle g, handle h => g == h
  | v, w => sameNumber v w

def equalItems : List Value → List Value → Bool
  | [], [] => true
  | v :: vs, w :: ws => equal v w && equalItems vs ws
  | _, _ => false

def equalEntries : List (Value × Value) → List (Value × Value) → Bool
  | [], [] => true
  | (k, v) :: es, (l, w) :: fs => (compare k l).isEq && equal v w && equalEntries es fs
  | _, _ => false

end

/-- What stands under a key. -/
def find (key : Value) : List (Value × Value) → Option Value
  | [] => Option.none
  | (k, v) :: es => if (compare k key).isEq then some v else find key es

/-- The entry takes the value of one with its key, or its place in the order of the keys. -/
def insertEntry (key v : Value) : List (Value × Value) → List (Value × Value)
  | [] => [(key, v)]
  | (k, w) :: es =>
    match compare key k with
    | .eq => (k, v) :: es
    | .lt => (key, v) :: (k, w) :: es
    | .gt => (k, w) :: insertEntry key v es

def entriesOf (l : List (Value × Value)) : List (Value × Value) :=
  l.foldl (fun es e ↦ insertEntry e.1 e.2 es) []

/-- The attribute of a map. -/
def attribute? (v : Value) (name : String) : Option Value :=
  match v with
  | map entries _ => find (ofString name) entries
  | _ => Option.none

end Template.Value

end DeliveryCharts
