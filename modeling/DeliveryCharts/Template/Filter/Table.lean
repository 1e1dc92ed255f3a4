import DeliveryCharts.Template.Filter.Collection
import DeliveryCharts.Template.Filter.Manifest
import DeliveryCharts.Template.Filter.Text
import DeliveryCharts.Template.Markup
import DeliveryCharts.Template.Pretty
import DeliveryCharts.Template.Test

/-!
The filters by their names.
-/

namespace DeliveryCharts.Template.Filter

/-- A filter of texts. -/
def ofText (f : String → String) : Take Value := do return .ofString (f (← Take.text))

def int32 (v : Value) : Except Fault Int :=
  match v.int64?.filter (Width.signed 32) with
  | some z => .ok z
  | none => .error (Take.unconvertible v "i32")

def int64 (v : Value) : Except Fault Int :=
  match v.int64? with
  | some z => .ok z
  | none => .error (Take.unconvertible v "i64")

/-- The filters for writing manifests. -/
def manifest (name : String) : Option (Take Value) :=
  match name with
  | "toyaml" => some do return .ofString (← Take.finish (toyaml (← Take.value)))
  | "tojson" => some do return .ofString (← Take.finish (tojson (← Take.value)))
  | "b64encode" => some (ofText b64encode)
  | "b64decode" => some do return .ofString (← Take.finish (b64decode (← Take.text)))
  | "quote" => some do return .ofString (quote (← Take.value))
  | "squote" => some do return .ofString (squote (← Take.value))
  | "indent" => some do
    let s ← Take.text
    return .ofString (indent s (← Take.nat))
  | "nindent" => some do
    let s ← Take.text
    return .ofString (nindent s (← Take.nat))
  | "required" => some do
    let v ← Take.value
    Take.finish (required v (← Take.optional Take.textOf))
  | "empty" => some do return .bool (empty (← Take.value))
  | "haskey" => some do
    let v ← Take.value
    return .bool (haskey v (← Take.text))
  | "merge" => some do
    let base ← Take.value
    Take.finish (merge base (← Take.value))
  | "trunc" => some do
    let s ← Take.text
    return .ofString (trunc s (← Take.nat))
  | "trimprefix" => some do
    let s ← Take.text
    return .ofString (trimPrefix s (← Take.text))
  | "trimsuffix" => some do
    let s ← Take.text
    return .ofString (trimSuffix s (← Take.text))
  | _ => none

def escape (v : Value) : Value :=
  match v with
  | .text s true => .text s true
  | v => .text (Markup.render true v) true

def length (v : Value) : Except Fault Value :=
  match v.length? with
  | some n => .ok (.ofNat n)
  | none => .error (.invalid s!"cannot calculate length of value of type {v.kind.name}")

/-- The default stands for undefined values, and for all that do not count as true if that is asked
for. -/
def default (v : Value) (other : Option Value) (lax : Bool) : Value :=
  if v.isUndefined || (lax && !v.truth) then other.getD (.ofString "") else v

def joined (v : Value) (separator : Option String) : Except Fault Value :=
  if v.isUndefined || v.isNone then .ok (.ofString "")
  else
    match v.iterate? with
    | some items => .ok (.ofString (join (separator.getD "") items))
    | none => .error (.invalid s!"cannot join value of type {v.kind.name}")

/-- The filters for texts, numbers and values of any kind. -/
def scalar (name : String) : Option (Take Value) :=
  match name with
  | "safe" => some do return .text (← Take.text) true
  | "escape" => some do return escape (← Take.value)
  | "e" => some do return escape (← Take.value)
  | "lower" => some (ofText Text.lower)
  | "upper" => some (ofText Text.upper)
  | "title" => some (ofText title)
  | "capitalize" => some (ofText capitalize)
  | "replace" => some do
    let s ← Take.text
    let old ← Take.text
    return .ofString (replace s old (← Take.text))
  | "trim" => some do
    let s ← Take.text
    return .ofString (trim s (← Take.optional Take.textOf))
  | "split" => some do
    let s ← Take.text
    let separator ← Take.optional Take.textOf
    return .list ((split s separator (← Take.optional int64)).map .ofString) true
  | "lines" => some do return .list ((lines (← Take.text)).map .ofString) true
  | "urlencode" => some do return .ofString (urlencode (← Take.value))
  | "int" => some do Take.finish (int (← Take.value))
  | "float" => some do Take.finish (float (← Take.value))
  | "abs" => some do Take.finish (abs (← Take.value))
  | "round" => some do
    let v ← Take.value
    Take.finish (round v ((← Take.optional int32).getD 0))
  | "string" => some do
    match ← Take.value with
    | .text s safe => return .text s safe
    | v => return .ofString v.toText
  | "bool" => some do return .bool (← Take.value).truth
  | "pprint" => some do return .ofString ((← Take.value).pretty 0)
  | "length" => some do Take.finish (length (← Take.value))
  | "count" => some do Take.finish (length (← Take.value))
  | "default" => some fallback
  | "d" => some fallback
  | "attr" => some do
    let v ← Take.value
    let key ← Take.value
    Take.finish (if v.isUndefined then .error .undefined else .ok ((v.item? key).getD .missing))
  | _ => none
where
  fallback : Take Value := do
    let v ← Take.value
    let other ← Take.anyOptional
    return default v other ((← Take.optional Take.boolOf).getD false)

/-- The items of the first argument for a filter that makes a list. -/
def takeItems : Take (List Value) := do
  let v ← Take.value
  Take.finish (listItems (← read) v)

def takeLists : Take (List (List Value)) := do
  let mode ← read
  (← Take.rest).mapM fun v ↦ (itemsOf mode v : Except Fault (List Value))

def takeGroups (f : List Value → Nat → Option Value → Except Fault Value) : Take Value := do
  let mode ← read
  let v ← Take.value
  let count ← Take.nat
  let filler ← Take.anyOptional
  Take.finish (do f (← itemsOf mode v) count filler)

/-- The filters for lists and maps. -/
def collection (name : String) : Option (Take Value) :=
  match name with
  | "dictsort" => some do
    let named ← Take.named
    Take.finish (dictsort (← Take.value) named)
  | "items" => some do Take.finish (items (← Take.value))
  | "reverse" => some do Take.finish (reverse (← Take.value))
  | "join" => some do
    let v ← Take.value
    Take.finish (joined v (← Take.optional Take.textOf))
  | "first" => some do Take.finish (first (← Take.value))
  | "last" => some do Take.finish (last (← Take.value))
  | "min" => some do return least (← takeItems)
  | "max" => some do return greatest (← takeItems)
  | "list" => some do return .ofList (← takeItems)
  | "sort" => some do
    let named ← Take.named
    Take.finish (sort (← takeItems) named)
  | "unique" => some do
    let mode ← read
    let named ← Take.named
    let v ← Take.value
    Take.finish (do unique (← itemsOf mode v) named)
  | "sum" => some do
    let mode ← read
    let v ← Take.value
    Take.finish (do sum (← itemsOf mode v))
  | "batch" => some (takeGroups batch)
  | "slice" => some (takeGroups columns)
  | "groupby" => some do
    let mode ← read
    let named ← Take.named
    let v ← Take.value
    let attr? ← Take.optional Take.textOf
    Take.finish <| match attr? <|> (Take.lookup named "attribute").map Value.toText with
    | some attr => do groupby (← itemsOf mode v) attr named
    | none => .error .missingArgument
  | "chain" => some do
    let lists ← takeLists
    return .list lists.flatten true
  | "zip" => some do
    let lists ← takeLists
    return .list (zipped ((lists.map List.length).foldl max 0) lists) true
  | _ => none

/-- The filters that need no other filter and no test. -/
def table (name : String) : Option (Take Value) :=
  manifest name <|> scalar name <|> collection name

/-- The items whose value, or whose attribute, passes a test; without a test, those that count as
true. -/
def selection (keep : Bool) (byAttribute : Bool) : Take Value := do
  let v ← Take.value
  let attr ← if byAttribute then some <$> Take.text else pure none
  let test ← Take.optional Take.textOf
  let args ← Take.rest
  let mode ← read
  match test with
  | some name => if (Test.table name).isNone then throw ⟨.unknownTest, none, none⟩
  | none => pure ()
  let kept ← (← itemsOf mode v).filterM fun item ↦ (do
    let value ← match attr with
      | some attr => path item attr
      | none => pure item
    let passed ← match test with
      | some name => Test.apply mode name (value :: args)
      | none => pure value.truth
    return passed == keep : Except Fault Bool)
  return .ofList kept

/-- The attributes of the items; the default stands for those that are not there. -/
def attributes (attr : Value) (named : List (Value × Value)) (items : List Value) :
    Except Fault Value := do
  let default := (Value.find (.ofString "default") named).getD .missing
  let found ← items.mapM fun item ↦
    let value := match attr.str? with
      | some dotted => path item dotted
      | none =>
        if item.isUndefined then .error .undefined else .ok ((item.item? attr).getD .missing)
    match value with
    | .ok v => Except.ok (if v.isUndefined then default else v)
    | .error f => if default.isUndefined then .error f else .ok default
  Take.onlyNamed named ["attribute", "default"]
  return .ofList found

/-- The filters that apply another filter to every item have it among their arguments, so that
these bound how deep they stand in each other. -/
def applyTo (mode : Mode) : Nat → String → List Value → Option (Except Fault Value)
  | _, "select", args => some (Take.all mode args (selection true false))
  | _, "reject", args => some (Take.all mode args (selection false false))
  | _, "selectattr", args => some (Take.all mode args (selection true true))
  | _, "rejectattr", args => some (Take.all mode args (selection false true))
  | n + 1, "map", args => some (Take.all mode args do
      let v ← Take.value
      let named ← Take.named
      let rest ← Take.rest
      match Take.lookup named "attribute" with
      | some attr =>
        if !rest.isEmpty then throw .tooManyArguments
        attributes attr named (← itemsOf mode v)
      | none =>
        match rest with
        | .text name _ :: rest =>
          let rest := if named.isEmpty then rest else rest ++ [.map named true]
          let results ← (← itemsOf mode v).mapM fun item ↦
            match applyTo mode n name (item :: rest) with
            | some result => result
            | none => throw ⟨.unknownFilter, none, none⟩
          return .ofList results
        | _ :: _ => throw (.invalid "filter name must be a string")
        | [] => throw (.invalid "filter name is required"))
  | _, name, args => (table name).map (Take.all mode args)

/-- Applies a filter to the first argument. -/
def apply (mode : Mode) (name : String) (args : List Value) : Except Fault Value :=
  match applyTo mode (args.length + 1) name args with
  | some result => result
  | none => .error ⟨.unknownFilter, some s!"filter {name} is unknown", none⟩

end DeliveryCharts.Template.Filter
