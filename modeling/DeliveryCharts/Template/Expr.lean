import DeliveryCharts.Template.Operation

/-!
Expressions of templates. Each node carries the line that a fault of its own operation is reported
with: that of the operand evaluated last, or its own where it has none.
-/

namespace DeliveryCharts.Template

mutual

inductive Expr where
  | const (v : Value) (line : Nat)
  | var (name : String) (line : Nat)
  /-- The text that a block hands to its filters. -/
  | given (line : Nat)
  | list (items : List Expr) (line : Nat)
  | map (entries : List (Expr × Expr)) (line : Nat)
  | field (e : Expr) (name : String) (line : Nat)
  | item (e index : Expr) (line : Nat)
  | slice (e start stop step : Expr) (line : Nat)
  | not (e : Expr) (line : Nat)
  | neg (e : Expr) (line : Nat)
  | binary (op : Operator) (e f : Expr) (line : Nat)
  | and (e f : Expr) (line : Nat)
  | or (e f : Expr) (line : Nat)
  | choice (test yes no : Expr) (line : Nat)
  | filter (name : String) (e : Expr) (args : List Argument) (line : Nat)
  | test (name : String) (e : Expr) (args : List Argument) (line : Nat)
  | call (name : String) (args : List Argument) (line : Nat)
  | method (e : Expr) (name : String) (args : List Argument) (line : Nat)
  | apply (e : Expr) (args : List Argument) (line : Nat)
  /-- The text of a block of the template. -/
  | block (name : String) (line : Nat)

/-- Arguments stand alone or under a name, and a list or a map can stand for several of them. -/
inductive Argument where
  | plain (e : Expr)
  | spread (e : Expr)
  | named (name : String) (e : Expr)
  | spreadNamed (e : Expr)

end

instance : Inhabited Expr := ⟨.given 0⟩

namespace Expr

def line : Expr → Nat
  | const _ l => l
  | var _ l => l
  | given l => l
  | list _ l => l
  | map _ l => l
  | field _ _ l => l
  | item _ _ l => l
  | slice _ _ _ _ l => l
  | not _ l => l
  | neg _ l => l
  | binary _ _ _ l => l
  | and _ _ l => l
  | or _ _ l => l
  | choice _ _ _ l => l
  | filter _ _ _ l => l
  | test _ _ _ l => l
  | call _ _ l => l
  | method _ _ _ l => l
  | apply _ _ l => l
  | block _ l => l

def isConst : Expr → Bool
  | const _ _ => true
  | _ => false

def isCall : Expr → Bool
  | call _ _ _ => true
  | method _ _ _ _ => true
  | apply _ _ _ => true
  | block _ _ => true
  | _ => false

end Expr

namespace Argument

/-- Named arguments whose values are all constants are no operands. -/
def lineAfter (line : Nat) (args : List Argument) : Nat :=
  let fixed := args.all fun
    | named _ e => e.isConst
    | spreadNamed _ => false
    | _ => true
  let positional := args.foldl (fun l a ↦
    match a with
    | plain e => e.line
    | spread e => e.line
    | _ => l) line
  if fixed then positional
  else
    args.foldl (fun l a ↦
      match a with
      | named _ e => e.line
      | spreadNamed e => e.line
      | _ => l) positional

end Argument

end DeliveryCharts.Template
