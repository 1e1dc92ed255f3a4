import DeliveryCharts.Template.Expr

/-!
The statements of templates.
-/

namespace DeliveryCharts.Template

/-- What a value is assigned to. -/
inductive Target where
  | var (name : String) (line : Nat)
  | field (e : Expr) (name : String) (line : Nat)
  | tuple (targets : List Target) (line : Nat)

/-- A statement that loads another template knows the line of its keyword. -/
inductive Stmt where
  | text (s : String) (line : Nat)
  | emit (e : Expr) (line : Nat)
  | loop (target : Target) (items : Expr) (only : Option Expr) (recursive : Bool)
      (body otherwise : List Stmt) (line : Nat)
  | cond (test : Expr) (yes no : List Stmt)
  | scope (assignments : List (Target × Expr)) (body : List Stmt)
  | set (target : Target) (e : Expr)
  | setBlock (target : Target) (filter : Option Expr) (body : List Stmt)
  | escape (mode : Expr) (body : List Stmt)
  | filter (chain : Expr) (body : List Stmt)
  | block (name : String) (body : List Stmt) (line : Nat)
  | extend (template : Expr) (line : Nat)
  | embed (template : Expr) (optional : Bool) (line : Nat)
  | importAs (template : Expr) (target : Target) (line : Nat)
  | importNames (template : Expr) (names : List (String × Nat × Target)) (line : Nat)
  | procedure (name : String) (params : List String) (defaults : List Expr) (body : List Stmt)
      (line : Nat)
  | callWith (call : Expr) (params : List String) (defaults : List Expr) (body : List Stmt)
      (line : Nat)
  | perform (call : Expr)

instance : Inhabited Stmt := ⟨.text "" 0⟩

/-- A template as it was read. Blocks stand in their order, those inside of others too. -/
structure Source where
  name : String
  body : List Stmt
  blocks : List (String × List Stmt)

end DeliveryCharts.Template
