import DeliveryCharts.Error
import DeliveryCharts.Yaml.Document

/-!
The values of a chart: a tree, usually an object, whose members are named by paths of keys with
points between them.
-/

namespace DeliveryCharts

/-- The YAML text has to be one document. -/
def Error.ofYaml (r : Except Yaml.Fault α) : Except Error α := r.mapError fun _ ↦ .yaml

structure Values where
  tree : Json
  deriving DecidableEq, Inhabited

namespace Values

def empty : Values := ⟨.obj []⟩

def isEmpty (v : Values) : Bool :=
  match v.tree with
  | .obj ms => ms.isEmpty
  | .null => true
  | _ => false

/-- A document without content has no values; other documents that are no map are refused. -/
def ofYaml (text : String) : Except Error Values := do
  match ← Error.ofYaml (Yaml.parse text) with
  | .null => return empty
  | .obj ms => return ⟨.obj ms⟩
  | v => throw (.valuesMerge ("values must be a mapping, got: " ++ v.compact))

mutual

/-- Objects are merged member by member; anything else is replaced by the overlay. -/
def mergeTrees : Json → Json → Json
  | .obj base, .obj overlay => .obj (mergeMembers base overlay)
  | _, overlay => overlay

def mergeMembers (base : Members) : List (String × Json) → Members
  | [] => base
  | (k, v) :: overlay =>
    let merged := match base.get? k with
      | some w => mergeTrees w v
      | none => v
    mergeMembers (base.insert k merged) overlay

end

def merge (base overlay : Values) : Values := ⟨mergeTrees base.tree overlay.tree⟩

/-- The keys of a path, at least one. -/
def pathKeys (path : String) : List String :=
  (Text.splitAll (· == '.') path.toList).map String.ofList

/-- What is no object on the way is replaced by an object. -/
def setAt : List String → Json → Json → Json
  | [], v, _ => v
  | key :: keys, v, t =>
    let ms := t.members?.getD []
    .obj (ms.insert key (setAt keys v ((ms.get? key).getD .null)))

def set (values : Values) (path : String) (v : Json) : Except Error Values :=
  let keys := pathKeys path
  if keys.any (·.isEmpty) then .error (.valuesMerge s!"invalid values path: '{path}'")
  else .ok ⟨setAt keys v values.tree⟩

def getAt : List String → Json → Option Json
  | [], t => some t
  | key :: keys, t => (t.get? key).bind (getAt keys)

def get? (values : Values) (path : String) : Option Json := getAt (pathKeys path) values.tree

end Values

end DeliveryCharts
