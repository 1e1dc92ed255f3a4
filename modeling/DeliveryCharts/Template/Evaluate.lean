import DeliveryCharts.Template.Filter.Table
import DeliveryCharts.Template.Machine

/-!
The values of expressions. Procedures, blocks and recursive loops are run by `enter`, of which
nothing is assumed here, so that evaluation follows the structure of the expression.
-/

namespace DeliveryCharts.Template

/-- Arguments without the map of named ones at their end, and this map. -/
def splitNamed (args : List Value) : List Value × Option (List (Value × Value)) :=
  match args.getLast? with
  | some (.map entries true) => (args.dropLast, some entries)
  | _ => (args, none)

/-- The value of each parameter, from the positional arguments or from the named ones. -/
def matchParams (named : List (Value × Value)) :
    List String → List Value → Except Fault (List Value)
  | [], [] => .ok []
  | [], _ :: _ => .error .tooManyArguments
  | p :: ps, args => do
    let v ← match args.head?, Value.find (.ofString p) named with
      | some _, some _ => throw ⟨.tooManyArguments, some s!"duplicate argument {quoted p}", none⟩
      | some v, none => pure v
      | none, some v => pure v
      | none, none => pure .missing
    return v :: (← matchParams named ps (args.drop 1))
where
  quoted (p : String) : String := "`" ++ p ++ "`"

/-- The value of each parameter and the block, if the procedure uses one. -/
def Procedure.take (p : Procedure) (args : List Value) :
    Except Fault (List Value × Option Value) := do
  let (args, named) := splitNamed args
  let named := named.getD []
  if args.length > p.params.length then throw .tooManyArguments
  let values ← matchParams named p.params args
  let known := fun (name : String) ↦
    (p.params.drop args.length).contains name || (p.usesBlock && name == "caller")
  match named.find? fun e ↦ e.1.str?.any (!known ·) with
  | some e =>
    throw ⟨.tooManyArguments, some ("unknown keyword argument `" ++ e.1.toText ++ "`"), none⟩
  | none =>
    return (values,
      if p.usesBlock then some ((Value.find (.ofString "caller") named).getD .missing) else none)

namespace Run

/-- Makes a record of a map. -/
def makeRecord (args : List Value) : Run Value := do
  match args with
  | [] => record []
  | [.undefined _] => record []
  | [.none] => record []
  | [.map entries _] => record (entries.filter fun e ↦ e.1.str?.isSome)
  | [v] => throw (.invalid s!"expected object or keyword arguments, got {v.kind.name}")
  | _ => throw .tooManyArguments

/-- Whether any argument of a loop's test for a change differs from the last ones. -/
def changed (id : Nat) (args : List Value) : Run Value := do
  let last := (((← get).loops[id]?).bind Loop.changed)
  if last.any (Value.equalItems args) then return .bool false
  modify fun s ↦ { s with loops := s.loops.modify id fun l ↦ { l with changed := some args } }
  return .bool true

def cycled (id : Nat) (args : List Value) : Run Value := do
  let index := ((← get).loops[id]?).elim 0 Loop.index
  return (args[index % args.length]?).getD .missing

def unknownMethod (owner name : String) : Fault :=
  ⟨.unknownMethod, some s!"{owner} has no method named {name}", none⟩

variable (enter : Part → Run Unit)

def callProcedure (id : Nat) (args : List Value) : Run Value := do
  match (← get).procedures[id]? with
  | none => return .missing
  | some p =>
    let (values, block) ← p.take args
    capture (enter (.procedure id values block))

def callFunction (name : String) (args : List Value) : Run Value := do
  let args ← args.mapM settle
  match name, Function.table name with
  | "namespace", _ => makeRecord args
  | _, some t => Take.all (← mode) args t
  | _, none => return .ofString ""

def callValue (v : Value) (args : List Value) : Run Value := do
  match v with
  | .handle (.function name) => callFunction name args
  | .handle (.procedure id _) => callProcedure enter id args
  | .handle (.loop _ _) => throw (.invalid "loop recursion cannot be called this way")
  | .handle (.record _) => throw (.invalid "object is not callable")
  | .list _ _ => throw (.invalid "object is not callable")
  | .map _ _ => throw (.invalid "object is not callable")
  | v => throw (.invalid s!"value of type {v.kind.name} is not callable")

/-- The next version of the running block and the running loop are called by names of their own. -/
def callName (name : String) (args : List Value) : Run Value := do
  match name, args with
  | "super", [] => capture (enter .nextVersion)
  | "super", _ => throw (.invalid "super() takes no arguments")
  | "loop", [items] => capture (enter (.loop items))
  | "loop", _ => throw (.invalid "loop() takes one argument")
  | name, args =>
    match ← lookup? name with
    | some v => callValue enter v args
    | none => throw ⟨.unknownFunction, some s!"{name} is unknown", none⟩

def callMethod (v : Value) (name : String) (args : List Value) : Run Value := do
  match v, name with
  | .handle (.loop id _), "changed" => changed id args
  | .handle (.loop id _), "cycle" => cycled id args
  | .handle (.loop _ _), _ => throw (unknownMethod "loop object" name)
  | v, name =>
    match ← field? v name with
    | some f => callValue enter f args
    | none => throw (unknownMethod v.kind.name name)

/-- A block does not run before the template that it belongs to is extended. -/
def callBlock (name : String) : Run Unit := do
  if (← get).parent.isNone && !(← isDiscarding) then enter (.block name)

def applyOperator (op : Operator) (v w : Value) : Run Value := do
  let v ← settle v
  let w ← settle w
  match op, w with
  | .member, .undefined false => if (← read).strict then throw .undefined
  | _, _ => pure ()
  Value.apply op v w

def sliceOf (v start stop step : Value) : Run Value := do
  if v.isUndefined && (← read).strict then throw .undefined
  Value.slice v start stop step

def namedEntries (v : Value) : Run (List (Value × Value)) := do
  match ← settle v with
  | .map entries _ => return entries
  | v =>
    throw (.invalid
      s!"attempted to apply keyword arguments from non map (got {v.kind.name})")

/-- The named arguments together follow the others. -/
def joinNamed (plain : List Value) (named : Option (List (Value × Value))) : List Value :=
  match named with
  | some entries => plain ++ [.map (Value.entriesOf entries) true]
  | none => plain

mutual

def eval : Expr → Run Value
  | .const v _ => return v
  | .var name _ => do return (← lookup? name).getD .missing
  | .given _ => do return (← get).given
  | .list items _ => do return .ofList (← evalItems items)
  | .map entries _ => do return .map (Value.entriesOf (← evalEntries entries)) false
  | .field e name line => do
    let v ← eval e
    onLine line do orMissing v (← field? v name)
  | .item e index line => do
    let v ← eval e
    let i ← eval index
    onLine line do orMissing v (← item? v i)
  | .slice e start stop step line => do
    let v ← eval e
    let start ← eval start
    let stop ← eval stop
    let step ← eval step
    onLine line (sliceOf v start stop step)
  | .not e line => do
    let v ← eval e
    return .bool !(← onLine line (truth v))
  | .neg e line => do
    let v ← eval e
    onLine line (v.neg : Except Fault Value)
  | .binary op e f line => do
    let v ← eval e
    let w ← eval f
    onLine line (applyOperator op v w)
  | .and e f _ => do
    let v ← eval e
    if ← onLine e.line (truth v) then eval f else return v
  | .or e f _ => do
    let v ← eval e
    if ← onLine e.line (truth v) then return v else eval f
  | .choice test yes no _ => do
    let v ← eval test
    if ← onLine test.line (truth v) then eval yes else eval no
  | .filter name e args line => do
    let v ← eval e
    let args := joinNamed (← evalPlain args) (← evalNamed args)
    onLine line do
      let args ← (v :: args).mapM settle
      Filter.apply (← mode) name args
  | .test name e args line => do
    let v ← eval e
    let args := joinNamed (← evalPlain args) (← evalNamed args)
    onLine line do
      let args ← (v :: args).mapM settle
      return .bool (← Test.apply (← mode) name args)
  | .call name args line => do
    let args := joinNamed (← evalPlain args) (← evalNamed args)
    onLine line (callName enter name args)
  | .method e name args line => do
    let v ← eval e
    let args := joinNamed (← evalPlain args) (← evalNamed args)
    onLine line (callMethod enter v name args)
  | .apply e args line => do
    let v ← eval e
    let args := joinNamed (← evalPlain args) (← evalNamed args)
    onLine line (callValue enter v args)
  | .block name line => onLine line (capture (callBlock enter name))

def evalItems : List Expr → Run (List Value)
  | [] => return []
  | e :: es => do
    let v ← eval e
    return v :: (← evalItems es)

def evalEntries : List (Expr × Expr) → Run (List (Value × Value))
  | [] => return []
  | (k, e) :: es => do
    let key ← eval k
    let v ← eval e
    return (key, v) :: (← evalEntries es)

def evalPlain : List Argument → Run (List Value)
  | [] => return []
  | .plain e :: as => do
    let v ← eval e
    return v :: (← evalPlain as)
  | .spread e :: as => do
    let v ← eval e
    let vs ← (v.iterate : Except Fault (List Value))
    return vs ++ (← evalPlain as)
  | _ :: as => evalPlain as

def evalNamed : List Argument → Run (Option (List (Value × Value)))
  | [] => return none
  | .named name e :: as => do
    let v ← eval e
    return some ((.ofString name, v) :: ((← evalNamed as).getD []))
  | .spreadNamed e :: as => do
    let entries ← namedEntries (← eval e)
    return some (entries ++ ((← evalNamed as).getD []))
  | _ :: as => evalNamed as

end

/-- A call to which a block is handed under a name. -/
def evalCall (block : Run Value) (e : Expr) : Run Value := do
  let withBlock := fun args ↦ do
    let (plain, named) := splitNamed (joinNamed (← evalPlain enter args) (← evalNamed enter args))
    let entries := named.getD []
    return plain ++ [.map (Value.insertEntry (.ofString "caller") (← block) entries) true]
  match e with
  | .call name args line => do
    let args ← withBlock args
    onLine line (callName enter name args)
  | .method e name args line => do
    let v ← eval enter e
    let args ← withBlock args
    onLine line (callMethod enter v name args)
  | .apply e args line => do
    let v ← eval enter e
    let args ← withBlock args
    onLine line (callValue enter v args)
  | e => eval enter e

end Run

end DeliveryCharts.Template
