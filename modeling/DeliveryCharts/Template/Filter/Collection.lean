import DeliveryCharts.Template.Take
import DeliveryCharts.Text.Casing

/-!
The filters for lists and maps.
-/

namespace DeliveryCharts.Template.Filter

/-- The items to loop over; undefined values have none unless they are faults. -/
def itemsOf (mode : Mode) (v : Value) : Except Fault (List Value) :=
  match v with
  | .undefined false => if mode.strict then .error .undefined else .ok []
  | v => v.iterate

/-- The items for a filter that makes a list. -/
def listItems (mode : Mode) (v : Value) : Except Fault (List Value) :=
  (itemsOf mode v).mapError fun _ ↦ .invalid "cannot convert value to list"

/-- What stands behind a path of attributes and positions. -/
def followPath : List (List Char) → Value → Except Fault Value
  | [], v => .ok v
  | part :: parts, v =>
    if v.isUndefined then .error .undefined
    else
      let found := match Text.readNat? 10 part with
        | some n => v.item? (.ofNat n)
        | none => v.attribute? (.ofList part)
      followPath parts (found.getD .missing)

def path (v : Value) (dotted : String) : Except Fault Value :=
  followPath (Text.splitAll (· == '.') dotted.toList) v

/-- Texts compare without regard to the case of ASCII letters, unless it is asked for. -/
def order (caseSensitive : Bool) (v w : Value) : Ordering :=
  match v, w with
  | .text s _, .text t _ =>
    if caseSensitive then Ord.compare s t
    else Ord.compare (String.ofList (Text.asciiLower s.toList))
      (String.ofList (Text.asciiLower t.toList))
  | v, w => v.compare w

def sorted (order : α → α → Ordering) (items : List α) : List α :=
  items.mergeSort fun a b ↦ (order a b).isLE

def flag (entries : List (Value × Value)) (name : String) : Except Fault Bool :=
  match Take.lookup entries name with
  | none => .ok false
  | some v => Take.boolOf v

def string? (entries : List (Value × Value)) (name : String) : Except Fault (Option String) :=
  match Take.lookup entries name with
  | none => .ok none
  | some (.text s _) => .ok (some s)
  | some _ => .error (.invalid "value is not a string")

/-- Items that have no such attribute keep their places. -/
def sort (items : List Value) (named : List (Value × Value)) : Except Fault Value := do
  let caseSensitive ← flag named "case_sensitive"
  let attr ← string? named "attribute"
  let reverse ← flag named "reverse"
  Take.onlyNamed named ["case_sensitive", "attribute", "reverse"]
  let compared := fun v w ↦
    match attr with
    | none => order caseSensitive v w
    | some a =>
      match path v a, path w a with
      | .ok v, .ok w => order caseSensitive v w
      | _, _ => .eq
  let items := sorted compared items
  return .ofList (if reverse then items.reverse else items)

def pairs (entries : List (Value × Value)) : Value :=
  .ofList (entries.map fun e ↦ .ofList [e.1, e.2])

def notPairs : Fault := .invalid "cannot convert value into pair list"

def items : Value → Except Fault Value
  | .map entries _ => .ok (pairs entries)
  | _ => .error notPairs

def dictsort (v : Value) (named : List (Value × Value)) : Except Fault Value := do
  match v with
  | .map entries _ =>
    let byValue ← match ← string? named "by" with
      | none => pure false
      | some "key" => pure false
      | some "value" => pure true
      | some other => throw (.invalid s!"invalid value '{other}' for 'by' parameter")
    let caseSensitive ← flag named "case_sensitive"
    let reverse ← flag named "reverse"
    Take.onlyNamed named ["by", "case_sensitive", "reverse"]
    let key := fun e : Value × Value ↦ if byValue then e.2 else e.1
    let entries := sorted (fun e f ↦ order caseSensitive (key e) (key f)) entries
    return pairs (if reverse then entries.reverse else entries)
  | _ => throw notPairs

/-- Of items that are the same without regard to case the first one stays. -/
def unique (all : List Value) (named : List (Value × Value)) : Except Fault Value := do
  let attr ← string? named "attribute"
  let caseSensitive ← flag named "case_sensitive"
  Take.onlyNamed named ["case_sensitive", "attribute"]
  let key := fun v : Value ↦
    let v := match attr with
      | none => v
      | some a => ((path v a).toOption).getD .missing
    match v with
    | .text s safe => .text (if caseSensitive then s else Text.lower s) safe
    | v => v
  let kept := all.foldl (fun (kept : List (Value × Value)) v ↦
    let k := key v
    if kept.any fun e ↦ (e.1.compare k).isEq then kept else kept ++ [(k, v)]) []
  return .ofList (kept.map Prod.snd)

def reverse (v : Value) : Except Fault Value :=
  match v with
  | .undefined silent => .ok (.undefined silent)
  | .none => .ok .none
  | .text s _ => .ok (.ofString (.ofList s.toList.reverse))
  | .list items _ => .ok (.list items.reverse true)
  | .map entries _ => .ok (.list (entries.map Prod.fst).reverse true)
  | v => .error (.invalid s!"cannot reverse values of type {v.kind.name}")

def first (v : Value) : Except Fault Value :=
  match v with
  | .text _ _ => .ok ((v.item? (.int 0)).getD .missing)
  | .list items _ => .ok (items.head?.getD .missing)
  | .map entries _ => .ok ((entries.head?.map Prod.fst).getD .missing)
  | _ => .error (.invalid "cannot get first item from value")

def last (v : Value) : Except Fault Value :=
  match v with
  | .text _ _ => .ok ((v.item? (.int (-1))).getD .missing)
  | .list items _ => .ok (items.getLast?.getD .missing)
  | _ => .error (.invalid "cannot get last item from value")

/-- The least item; of equal ones the first. -/
def least (items : List Value) : Value :=
  items.foldl (fun m v ↦
    match m with
    | none => some v
    | some m => if (v.compare m).isLT then some v else some m) none |>.getD .missing

/-- The greatest item; of equal ones the last. -/
def greatest (items : List Value) : Value :=
  items.foldl (fun m v ↦
    match m with
    | none => some v
    | some m => if (v.compare m).isLT then some m else some v) none |>.getD .missing

def sum (items : List Value) : Except Fault Value :=
  items.foldlM (fun total v ↦
    match v with
    | .undefined _ => .error .undefined
    | v =>
      if v.kind = .number then total.add v
      else .error (.invalid s!"can only sum numbers, got {v.kind.name}")) (.int 0)

/-- Groups of `count` items, the last one filled up. -/
def batches (count : Nat) (filler : Option Value) : Nat → List Value → List Value
  | 0, _ => []
  | _, [] => []
  | fuel + 1, items =>
    let group := items.take count
    let fill := match filler with
      | some v => List.replicate (count - group.length) v
      | none => []
    .ofList (group ++ fill) :: batches count filler fuel (items.drop count)

def batch (items : List Value) (count : Nat) (filler : Option Value) : Except Fault Value :=
  if count = 0 then .error (.invalid "count cannot be 0")
  else .ok (.ofList (batches count filler items.length items))

/-- As many groups as are asked for, the first ones with one item more. -/
def columns (items : List Value) (count : Nat) (filler : Option Value) : Except Fault Value :=
  if count = 0 then .error (.invalid "count cannot be 0")
  else
    let size := items.length / count
    let longer := items.length % count
    .ok (.ofList ((List.range count).map fun i ↦
      let start := i * size + min i longer
      let group := (items.drop start).take (if i < longer then size + 1 else size)
      match filler with
      | some v => .ofList (if i < longer then group else group ++ [v])
      | none => .ofList group))

/-- The items that share the value of an attribute, in the order of these values. -/
def groupby (all : List Value) (attr : String) (named : List (Value × Value)) :
    Except Fault Value := do
  let caseSensitive ← flag named "case_sensitive"
  let default := (Take.lookup named "default").getD .missing
  Take.onlyNamed named ["case_sensitive", "default", "attribute"]
  let key := fun v ↦
    match path v attr with
    | .ok w => if w.isUndefined then default else w
    | .error _ => default
  let ordered := sorted (fun v w ↦ order caseSensitive (key v) (key w)) all
  let groups := ordered.foldr (fun v (groups : List (Value × List Value)) ↦
    match groups with
    | (k, vs) :: rest =>
      if (order caseSensitive (key v) k).isEq then (key v, v :: vs) :: rest
      else (key v, [v]) :: groups
    | [] => [(key v, [v])]) []
  return .ofList (groups.map fun g ↦ .ofList [g.1, .ofList g.2])

/-- One list for each position that all lists have. -/
def zipped : Nat → List (List Value) → List Value
  | 0, _ => []
  | fuel + 1, lists =>
    if lists.any List.isEmpty then []
    else
      .ofList (lists.filterMap List.head?) :: zipped fuel (lists.map List.tail)

end DeliveryCharts.Template.Filter
