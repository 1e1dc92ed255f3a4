import DeliveryCharts.Template.Stmt
import DeliveryCharts.Template.Token

/-!
Reading a template token by token. What does not fit is reported with the line of the token read
last.
-/

namespace DeliveryCharts.Template.Read

/-- The tokens left, the fault behind them, and what has been read: the line of the last token, how
deep the reading is, whether it is inside of a procedure, and the blocks found. -/
structure State where
  rest : List Located
  fault : Option Fault
  last : Nat := 0
  depth : Nat := 0
  inProcedure : Bool := false
  names : List String := []
  blocks : List (String × List Stmt) := []

end Read

abbrev Read := StateT Read.State (Except Fault)

namespace Read

def fail : Read α := do throw (.malformed (some (← get).last))

def peek : Read (Option Token) := do
  let s ← get
  match s.rest with
  | (t, _) :: _ => return some t
  | [] =>
    match s.fault with
    | some f => throw (f.locate s.last)
    | none => return none

def next : Read (Option Located) := do
  let _ ← peek
  let s ← get
  match s.rest with
  | t :: rest =>
    set { s with rest, last := t.2 }
    return some t
  | [] => return none

/-- The line of the next token, or of the last one at the end. -/
def nextLine : Read Nat := do
  let s ← get
  return match s.rest with
    | (_, line) :: _ => line
    | [] => s.last

def lastLine : Read Nat := do return (← get).last

/-- Reads the token if it comes next. -/
def skip (t : Token) : Read Bool := do
  if (← peek) = some t then
    let _ ← next
    return true
  return false

def skipSymbol (s : String) : Read Bool := skip (.symbol s)

def skipName (s : String) : Read Bool := skip (.name s)

def expect (t : Token) : Read Unit := do
  match ← next with
  | some (u, _) => if t ≠ u then fail
  | none => fail

def expectSymbol (s : String) : Read Unit := expect (.symbol s)

def expectName (s : String) : Read Unit := expect (.name s)

/-- A name with its line. -/
def name : Read (String × Nat) := do
  match ← next with
  | some (.name s, line) => return (s, line)
  | _ => fail

/-- Names with points between them, as one name. -/
def dottedRest : Nat → String → Read String
  | 0, _ => fail
  | n + 1, s => do
    if ← skipSymbol "." then
      let (more, _) ← name
      dottedRest n (s ++ "." ++ more)
    else return s

def maxDepth : Nat := 150

/-- Refuses what is nested too deep. -/
def deeper (m : Read α) : Read α := do
  let s ← get
  if s.depth ≥ maxDepth then fail
  set { s with depth := s.depth + 1 }
  let a ← m
  modify fun s ↦ { s with depth := s.depth - 1 }
  return a

end DeliveryCharts.Template.Read
