import DeliveryCharts.Template.Function
import DeliveryCharts.Template.Markup
import DeliveryCharts.Template.Stmt

/-!
The state of a rendering: the names that are assigned, the text written so far, and the records,
loops and procedures that values refer to by number.
-/

namespace DeliveryCharts.Template

/-- A frame holds assigned names over the names of its base, which is a closure. Names assigned in a
frame go into the frame's own closure too, once there is one. A loop runs in its own frame, and is
found there as `loop` if it is named. -/
structure Frame where
  locals : List (String × Value) := []
  base : Option Nat := none
  loop : Option (Nat × Bool) := none
  closure : Option Nat := none

/-- A loop can be run again from inside if it is recursive. -/
structure Loop where
  items : Array Value
  index : Nat := 0
  depth : Nat
  changed : Option (List Value) := none
  again : Option (Target × List Stmt)

structure Procedure where
  name : String
  params : List String
  defaults : List Expr
  body : List Stmt
  closure : Option Nat
  /-- It uses the block that is handed to it. -/
  usesBlock : Bool

/-- A block with its versions from the extending template to the extended, and the one in use. -/
structure Versions where
  bodies : List (List Stmt)
  current : Nat := 0

/-- Text written where no text is kept is lost. -/
structure Machine where
  frames : List Frame
  outer : Nat := 0
  html : Bool
  outputs : List (Option String) := [some ""]
  blocks : List (String × Versions)
  block : Option String := none
  loaded : List String
  parent : Option (List Stmt) := none
  given : Value := .missing
  records : Array (List (Value × Value)) := #[]
  closures : Array (List (String × Value))
  procedures : Array Procedure := #[]
  loops : Array Loop := #[]

/-- The templates that can be loaded. -/
structure Site where
  sources : List Source
  strict : Bool

abbrev Run := ReaderT Site (StateT Machine (Except Fault))

/-- The parts of a rendering that run apart: the body of a procedure, a block, the next version of
the running block, the running loop once more, and a template that is included. -/
inductive Part where
  | procedure (id : Nat) (args : List Value) (block : Option Value)
  | block (name : String)
  | nextVersion
  | loop (items : Value)
  | template (source : Source)

/-- The value of a name, in place of the one it had. -/
def assign (name : String) (v : Value) (names : List (String × Value)) : List (String × Value) :=
  (name, v) :: names.filter (·.1 != name)

namespace Run

/-- Faults without a place are put on the line. -/
def onLine (line : Nat) (m : Run α) : Run α := fun site s ↦ (m site s).mapError (Fault.locate line)

def mode : Run Mode := do return ⟨(← read).strict, (← get).html⟩

def maxDepth : Nat := 500

def depth : Run Nat := do
  let s ← get
  return s.outer + s.frames.length

def checkDepth : Run Unit := do
  if (← depth) > maxDepth then throw (.invalid "recursion limit exceeded")

def pushFrame (f : Frame) : Run Unit := do
  modify fun s ↦ { s with frames := f :: s.frames }
  checkDepth

def popFrame : Run Unit := modify fun s ↦ { s with frames := s.frames.drop 1 }

def withFrame (f : Frame) (m : Run α) : Run α := do
  pushFrame f
  let a ← m
  popFrame
  return a

def topFrame : Run Frame := do return (← get).frames.headD {}

def setTopFrame (f : Frame) : Run Unit := modify fun s ↦ { s with frames := f :: s.frames.drop 1 }

/-! Text. -/

def write (text : String) : Run Unit :=
  modify fun s ↦
    match s.outputs with
    | some written :: rest => { s with outputs := some (written ++ text) :: rest }
    | _ => s

def isDiscarding : Run Bool := do
  return match (← get).outputs with
    | none :: _ => true
    | _ => false

def startOutput (output : Option String) : Run Unit :=
  modify fun s ↦ { s with outputs := output :: s.outputs }

def endOutput : Run String := do
  let s ← get
  set { s with outputs := s.outputs.drop 1 }
  return match s.outputs with
    | some written :: _ => written
    | _ => ""

/-- The text that is written meanwhile; in markup it is safe. -/
def capture (m : Run Unit) : Run Value := do
  startOutput (some "")
  m
  let written ← endOutput
  return .text written (← get).html

def discard (m : Run α) : Run α := do
  startOutput none
  let a ← m
  let _ ← endOutput
  return a

/-! Names. -/

def loopValue (id : Nat) : Run Value := do
  let l? := (← get).loops[id]?
  let label := l?.elim "" fun l ↦ s!"<loop {l.index}/{l.items.size}>"
  return .handle (.loop id label)

def inFrame? (f : Frame) (name : String) : Run (Option Value) := do
  match f.locals.lookup name with
  | some v => return some v
  | none =>
    match f.loop, name with
    | some (id, true), "loop" => return some (← loopValue id)
    | _, _ =>
      let s ← get
      return (f.base.bind (s.closures[·]?)).bind (·.lookup name)

/-- The innermost value of the name, or else the function. -/
def lookup? (name : String) : Run (Option Value) := do
  match ← (← get).frames.findSomeM? (inFrame? · name) with
  | some v => return some v
  | none => return if Function.names.contains name then some (.handle (.function name)) else none

def store (name : String) (v : Value) : Run Unit := do
  let f ← topFrame
  setTopFrame { f with locals := assign name v f.locals }
  match f.closure with
  | some id => modify fun s ↦ { s with closures := s.closures.modify id (assign name v) }
  | none => pure ()

/-- Keeps the value that the name has now for the procedures of the frame. -/
def enclose (name : String) : Run Unit := do
  let f ← topFrame
  let id ← match f.closure with
    | some id => pure id
    | none =>
      let s ← get
      set { s with closures := s.closures.push [] }
      setTopFrame { f with closure := some s.closures.size }
      pure s.closures.size
  let kept := ((← get).closures[id]?).getD []
  if (kept.lookup name).isNone then
    let v := (← lookup? name).getD .missing
    modify fun s ↦ { s with closures := s.closures.modify id (assign name v) }

/-! Records and loops. -/

def record (entries : List (Value × Value)) : Run Value := do
  let s ← get
  set { s with records := s.records.push entries }
  return .handle (.record s.records.size)

/-- A record as the map that it is at the moment. -/
def settle (v : Value) : Run Value := do
  match v with
  | .handle (.record id) => return .map (((← get).records[id]?).getD []) false
  | v => return v

/-- The innermost loop. -/
def loop? : Run (Option Loop) := do
  let s ← get
  return (s.frames.findSome? Frame.loop).bind fun l ↦ s.loops[l.1]?

/-- A loop inside of a recursive one is one level deeper. -/
def newLoop (items : List Value) (again : Option (Target × List Stmt)) : Run Nat := do
  let depth := match (← loop?).filter (·.again.isSome) with
    | some l => l.depth + 1
    | none => 0
  let s ← get
  set { s with loops := s.loops.push { items := items.toArray, depth, again } }
  return s.loops.size

/-- Runs the body for each item, all in one frame. -/
def iterate (items : List Value) (again : Option (Target × List Stmt)) (named : Bool)
    (body : Value → Run Unit) : Run Unit := do
  let id ← newLoop items again
  withFrame { loop := some (id, named) } do
    items.zipIdx.forM fun (item, i) ↦ do
      modify fun s ↦ { s with loops := s.loops.modify id fun l ↦ { l with index := i } }
      body item

def loopField (l : Loop) (name : String) : Option Value :=
  let left := l.items.size - l.index
  match name with
  | "index0" => some (.ofNat l.index)
  | "index" => some (.ofNat (l.index + 1))
  | "length" => some (.ofNat l.items.size)
  | "revindex" => some (.ofNat left)
  | "revindex0" => some (.ofNat (left - 1))
  | "first" => some (.bool (l.index == 0))
  | "last" => some (.bool (l.index + 1 == l.items.size))
  | "depth" => some (.ofNat (l.depth + 1))
  | "depth0" => some (.ofNat l.depth)
  | "previtem" => some (if l.index = 0 then .missing else (l.items[l.index - 1]?).getD .missing)
  | "nextitem" => some ((l.items[l.index + 1]?).getD .missing)
  | _ => none

def procedureField (p : Procedure) (name : String) : Option Value :=
  match name with
  | "name" => some (.ofString p.name)
  | "arguments" => some (.ofList (p.params.map .ofString))
  | "caller" => some (.bool p.usesBlock)
  | _ => none

/-- What stands under the name in a value. -/
def field? (v : Value) (name : String) : Run (Option Value) := do
  let s ← get
  return match v with
    | .handle (.record id) => (s.records[id]?).bind (Value.find (.ofString name))
    | .handle (.loop id _) => (s.loops[id]?).bind (loopField · name)
    | .handle (.procedure id _) => (s.procedures[id]?).bind (procedureField · name)
    | v => v.attribute? name

def item? (v index : Value) : Run (Option Value) := do
  match v, index with
  | .handle _, .text name _ => field? v name
  | .handle (.record id), key => return ((← get).records[id]?).bind (Value.find key)
  | v, index => return v.item? index

/-- Only a missing part of a value that is there itself is undefined. -/
def orMissing (v : Value) (found : Option Value) : Run Value := do
  match found with
  | some w => return w
  | none => if v.isUndefined then throw .undefined else return .missing

/-- Whether the value counts as true. -/
def truth (v : Value) : Run Bool := do
  match v with
  | .undefined false => if (← read).strict then throw .undefined else return false
  | v => return v.truth

/-- Writes a value. -/
def print (v : Value) : Run Unit := do
  match v with
  | .undefined false => if (← read).strict then throw .undefined
  | v => write (Markup.render (← get).html (← settle v))

end Run

end DeliveryCharts.Template
