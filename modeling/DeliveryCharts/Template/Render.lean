import DeliveryCharts.Template.Evaluate
import DeliveryCharts.Template.Names

/-!
Running templates. Statements are run along their structure; what runs apart from them, such as the
body of a procedure, lies on a further frame, and frames are limited.
-/

namespace DeliveryCharts.Template

namespace Run

def unpack (count : Nat) (v : Value) : Run (List Value) := do
  let fault := fun reason ↦ Fault.mk .cannotUnpack (some reason) none
  let items ← match ← settle v with
    | .list items _ => pure items
    | .map entries _ => pure (entries.map Prod.fst)
    | _ => throw (fault "value is not iterable")
  if items.length ≠ count then
    throw (fault s!"sequence of wrong length (expected {count}, got {items.length})")
  return items

/-- Only records are changed. -/
def setField (owner : Value) (name : String) (v : Value) : Run Unit := do
  match owner with
  | .handle (.record id) =>
    modify fun s ↦
      { s with records := s.records.modify id (Value.insertEntry (.ofString name) v) }
  | owner => throw (.invalid s!"can only assign to namespaces, not {owner.kind.name}")

/-- The mode of writing that a value asks for. -/
def markupOf (v : Value) : Except Fault Bool :=
  let invalid := .error (.invalid "invalid value to autoescape tag")
  match v with
  | .text "html" _ => .ok true
  | .text "none" _ => .ok false
  | .text _ _ => invalid
  | v => .ok (v.equal (.bool true))

def withMarkup (html : Bool) (m : Run α) : Run α := do
  let before := (← get).html
  modify fun s ↦ { s with html }
  let a ← m
  modify fun s ↦ { s with html := before }
  return a

def findSource (name : String) : Run (Option Source) := do
  return (← read).sources.find? (·.name == name)

def nameNotText : Fault := .invalid "template name was not a string"

/-- The template that is extended runs behind the one that extends it, of which no more text is
kept; its versions of blocks come after those that are there. -/
def extend (template : Value) : Run Unit := do
  if (← get).parent.isSome then
    throw (.invalid "tried to extend a second time in a template")
  match template with
  | .text name _ =>
    if (← get).loaded.contains name then
      throw (.invalid (s!"cycle in template inheritance. {Text.debugString name} was " ++
        "referenced more than once"))
    match ← findSource name with
    | none =>
      throw ⟨.templateNotFound, some s!"template {Text.debugString name} does not exist", none⟩
    | some source =>
      modify fun s ↦
        { s with
          loaded := name :: s.loaded
          parent := some source.body
          blocks := source.blocks.foldl addVersion s.blocks }
      startOutput none
  | _ => throw nameNotText
where
  addVersion (blocks : List (String × Versions)) (block : String × List Stmt) :
      List (String × Versions) :=
    match blocks.lookup block.1 with
    | some v =>
      blocks.map fun b ↦
        if b.1 == block.1 then (b.1, { v with bodies := v.bodies ++ [block.2] }) else b
    | none => blocks ++ [(block.1, ⟨[block.2], 0⟩)]

/-- The first of the templates that is there; a list offers several. -/
def choose (template : Value) : Run (Option Source) := do
  match template with
  | .list items _ => items.findSomeM? fun v ↦
      match v with
      | .text name _ => findSource name
      | _ => throw nameNotText
  | .text name _ => findSource name
  | _ => throw nameNotText

def embed (enter : Part → Run Unit) (template : Value) (optional : Bool) : Run Unit := do
  match ← choose template with
  | some source => enter (.template source)
  | none =>
    let notFound := fun detail ↦ Fault.mk .templateNotFound (some detail) none
    if !optional then
      match template with
      | .list [] _ => pure ()
      | .list [name] _ => throw (notFound s!"tried to include non-existing template {name.inner}")
      | .list names _ =>
        throw (notFound ("tried to include one of multiple templates, none of which existed " ++
          (Value.ofList names).toText))
      | v => throw (notFound s!"tried to include non-existing template {v.inner}")

/-- The value of a procedure with the names that it finds where it is defined. -/
def define (name : String) (params : List String) (defaults : List Expr) (body : List Stmt) :
    Run Value := do
  let free := freeNames params defaults body
  (free.filter (· != "caller")).forM enclose
  let closure := (← topFrame).closure
  let s ← get
  let p : Procedure := ⟨name, params, defaults, body, closure, free.contains "caller"⟩
  set { s with procedures := s.procedures.push p }
  return .handle (.procedure s.procedures.size name)

variable (enter : Part → Run Unit)

mutual

def assignTo : Target → Value → Run Unit
  | .var name _, v => store name v
  | .field e name line, v => do
    let owner ← eval enter e
    onLine line (setField owner name v)
  | .tuple targets line, v => do
    let vs ← onLine line (unpack targets.length v)
    assignEach targets vs

def assignEach : List Target → List Value → Run Unit
  | t :: ts, v :: vs => do
    assignTo t v
    assignEach ts vs
  | _, _ => return

end

/-- The items of a loop that its condition lets through. -/
def select (target : Target) (items : List Value) (only : Expr) : Run (List Value) := do
  let id ← newLoop items none
  withFrame { loop := some (id, false) } do
    items.filterM fun item ↦ do
      assignTo enter target item
      let v ← eval enter only
      onLine only.line (truth v)

def loopItems (target : Target) (items : Expr) (only : Option Expr) : Run (List Value) := do
  let v ← eval enter items
  let all ← onLine items.line do Filter.itemsOf (← mode) (← settle v)
  match only with
  | none => return all
  | some only => select enter target all only

/-- The text of a block by way of its filters. -/
def filtered (chain : Expr) (text : Value) : Run Value := do
  modify fun s ↦ { s with given := text }
  eval enter chain

/-- Writes the value of an expression; blocks and loops write their text themselves. -/
def emit (e : Expr) (line : Nat) : Run Unit := do
  match e with
  | .block name _ => onLine line (callBlock enter name)
  | .call "super" [] line => onLine line (enter .nextVersion)
  | .call "loop" [.plain items] line => do
    let v ← eval enter items
    onLine line (enter (.loop v))
  | e => do
    let v ← eval enter e
    onLine e.line (print v)

mutual

def exec : Stmt → Run Unit
  | .text s _ => write s
  | .emit e line => emit enter e line
  | .loop target items only recursive body otherwise line => do
    let all ← loopItems enter target items only
    onLine line (iterate all (if recursive then some (target, body) else none) true fun v ↦ do
      assignTo enter target v
      execAll body)
    if all.isEmpty then execAll otherwise
  | .cond test yes no => do
    let v ← eval enter test
    if ← onLine test.line (truth v) then execAll yes else execAll no
  | .scope assignments body => withFrame {} do
    assignments.forM fun (target, e) ↦ do
      let v ← eval enter e
      assignTo enter target v
    execAll body
  | .set target e => do
    let v ← eval enter e
    assignTo enter target v
  | .setBlock target filter body => do
    let text ← capture (execAll body)
    match filter with
    | some chain => assignTo enter target (← filtered enter chain text)
    | none => assignTo enter target text
  | .escape mode body => do
    let v ← eval enter mode
    let html ← onLine mode.line (markupOf v : Except Fault Bool)
    withMarkup html (execAll body)
  | .filter chain body => do
    let text ← capture (execAll body)
    let v ← filtered enter chain text
    onLine chain.line (print v)
  | .block name _ line => onLine line (callBlock enter name)
  | .extend template line => do
    let v ← eval enter template
    onLine line (extend v)
  | .embed template optional line => do
    let v ← eval enter template
    onLine line (embed enter v optional)
  | .importAs template target line => do
    let entries ← discard <| withFrame {} do
      let v ← eval enter template
      onLine line (embed enter v false)
      return (← topFrame).locals
    assignTo enter target
      (.map (Value.entriesOf (entries.map fun e ↦ (.ofString e.1, e.2))) false)
  | .importNames template names line => do
    let values ← discard <| withFrame {} do
      let v ← eval enter template
      onLine line (embed enter v false)
      names.mapM fun n ↦ do return (← lookup? n.1).getD .missing
    (names.zip values).reverse.forM fun (n, v) ↦ assignTo enter n.2.2 v
  | .procedure name params defaults body _ => do
    store name (← define name params defaults body)
  | .callWith call params defaults body _ => do
    let v ← evalCall enter (define "caller" params defaults body) call
    onLine call.line (print v)
  | .perform call => do
    let _ ← eval enter call

def execAll : List Stmt → Run Unit
  | [] => return
  | s :: ss => do
    exec s
    execAll ss

end

/-- Runs a template, and then the one that it extends. No template is extended twice. -/
def runChain : Nat → List Stmt → Run Unit
  | 0, _ => return
  | n + 1, body => do
    execAll enter body
    match (← get).parent with
    | none => return
    | some parent =>
      let _ ← endOutput
      modify fun s ↦ { s with parent := none }
      runChain n parent

def runBody (body : List Stmt) : Run Unit := do
  runChain enter ((← read).sources.length + 1) body

/-- The values of the parameters, from the last one to the first; a default stands for a value that
is undefined. -/
def bindParams : List (String × Value) → List Expr → Run Unit
  | [], _ => return
  | (name, v) :: rest, [] => do
    store name v
    bindParams rest []
  | (name, v) :: rest, e :: defaults => do
    store name (← if v.isUndefined then eval enter e else pure v)
    bindParams rest defaults

def runProcedure (p : Procedure) (args : List Value) (block : Option Value) : Run Unit := do
  let s ← get
  let outer := (← depth) + 4
  let names := match block with
    | some v => [("caller", v)]
    | none => []
  set { s with
    frames := [{ locals := names, base := p.closure }]
    outer
    blocks := []
    block := none
    loaded := []
    parent := none }
  checkDepth
  bindParams enter (p.params.zip args).reverse p.defaults.reverse
  execAll enter p.body
  modify fun t ↦ { t with
    frames := s.frames
    outer := s.outer
    blocks := s.blocks
    block := s.block
    loaded := s.loaded
    parent := s.parent }

/-- Runs a version of a block. -/
def runVersion (body : List Stmt) : Run Unit := do
  let parent := (← get).parent
  modify fun s ↦ { s with parent := none }
  withFrame {} (runBody enter body)
  modify fun s ↦ { s with parent }

def runBlock (name : String) : Run Unit := do
  match (← get).blocks.lookup name with
  | none => throw ⟨.unknownBlock, some s!"block '{name}' not found", none⟩
  | some v =>
    let before := (← get).block
    modify fun s ↦ { s with block := some name }
    runVersion enter (v.bodies[v.current]?.getD [])
    modify fun s ↦ { s with block := before }

def setVersion (name : String) (version : Nat) : Run Unit :=
  modify fun s ↦ { s with blocks := s.blocks.map fun b ↦
    if b.1 == name then (b.1, { b.2 with current := version }) else b }

def wrapped (kind : FaultKind) (detail : String) (m : Run α) : Run α := fun site s ↦
  (m site s).mapError fun _ ↦ ⟨kind, some detail, none⟩

def runNextVersion : Run Unit := do
  match (← get).block with
  | none => throw (.invalid "cannot super outside of block")
  | some name =>
    match (← get).blocks.lookup name with
    | none => throw (.invalid "no parent block exists")
    | some v =>
      match v.bodies[v.current + 1]? with
      | none => throw (.invalid "no parent block exists")
      | some body =>
        setVersion name (v.current + 1)
        wrapped .badBlock "error in super block" (runVersion enter body)
        setVersion name v.current

def runLoop (items : Value) : Run Unit := do
  match ← loop? with
  | none => throw (.invalid "cannot recurse outside of loop")
  | some l =>
    match l.again with
    | none => throw (.invalid "cannot recurse outside of recursive loop")
    | some (target, body) =>
      let all ← Filter.itemsOf (← mode) (← settle items)
      iterate all l.again true fun v ↦ do
        assignTo enter target v
        execAll enter body

/-- An included template shares the frame of the one that includes it, but not its closure. -/
def runTemplate (source : Source) : Run Unit := do
  let s ← get
  let closure := (← topFrame).closure
  setTopFrame { ← topFrame with closure := none }
  modify fun t ↦ { t with
    outer := t.outer + 10
    html := Markup.isMarkup source.name
    blocks := versionsOf source
    parent := none }
  checkDepth
  wrapped .badInclude s!"error in {Text.debugString source.name}" (runBody enter source.body)
  modify fun t ↦ { t with
    outer := s.outer
    html := s.html
    blocks := s.blocks
    loaded := s.loaded
    parent := s.parent }
  setTopFrame { ← topFrame with closure }
where
  versionsOf (source : Source) : List (String × Versions) :=
    source.blocks.map fun b ↦ (b.1, ⟨[b.2], 0⟩)

def runPart : Part → Run Unit
  | .procedure id args block => do
    match (← get).procedures[id]? with
    | some p => runProcedure enter p args block
    | none => return
  | .block name => runBlock enter name
  | .nextVersion => runNextVersion enter
  | .loop items => runLoop enter items
  | .template source => runTemplate enter source

end Run

/-- Parts run inside of each other, no deeper than frames can lie on each other. -/
def Part.run : Nat → Part → Run Unit
  | 0, _ => throw (.invalid "recursion limit exceeded")
  | n + 1, part => Run.runPart (Part.run n) part

/-- The text of a template for the given names; it can load the others. -/
def Source.render (sources : List Source) (strict : Bool) (names : List (String × Value))
    (source : Source) : Except Fault String := do
  let start : Machine :=
    { frames := [{ base := some 0 }]
      html := Markup.isMarkup source.name
      blocks := Run.runTemplate.versionsOf source
      loaded := [source.name]
      closures := #[names] }
  let (_, s) ← (Run.runBody (Part.run Run.maxDepth) source.body).run ⟨sources, strict⟩ |>.run start
  return (s.outputs.head?.bind id).getD ""

end DeliveryCharts.Template
