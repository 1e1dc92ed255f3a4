import DeliveryCharts.Template.Stmt

/-!
The names that a procedure uses and does not bind itself. A name counts as bound from its first use
on, and the template of an `include`, the filters of a block and the mode of an `autoescape` are not
looked at.
-/

namespace DeliveryCharts.Template

/-- The free names found so far, and those bound in each open scope. -/
structure Names where
  free : List String := []
  scopes : List (List String) := [[]]

namespace Names

def bind (name : String) (ns : Names) : Names :=
  match ns.scopes with
  | s :: ss => { ns with scopes := (name :: s) :: ss }
  | [] => { ns with scopes := [[name]] }

def use (name : String) (ns : Names) : Names :=
  if ns.scopes.any (·.contains name) then ns
  else { ns.bind name with free := name :: ns.free }

/-- What is bound inside of a scope is forgotten behind it. -/
def inScope (f : Names → Names) (ns : Names) : Names :=
  { f { ns with scopes := [] :: ns.scopes } with scopes := ns.scopes }

end Names

mutual

def Expr.names : Expr → Names → Names
  | .const _ _, ns => ns
  | .var name _, ns => ns.use name
  | .given _, ns => ns
  | .list items _, ns => namesOfItems items ns
  | .map entries _, ns => namesOfEntries entries ns
  | .field e _ _, ns => e.names ns
  | .item e index _, ns => index.names (e.names ns)
  | .slice e start stop step _, ns => step.names (stop.names (start.names (e.names ns)))
  | .not e _, ns => e.names ns
  | .neg e _, ns => e.names ns
  | .binary _ e f _, ns => f.names (e.names ns)
  | .and e f _, ns => f.names (e.names ns)
  | .or e f _, ns => f.names (e.names ns)
  | .choice test yes no _, ns => no.names (yes.names (test.names ns))
  | .filter _ e args _, ns => namesOfArguments args (e.names ns)
  | .test _ e args _, ns => namesOfArguments args (e.names ns)
  | .call name args _, ns => namesOfArguments args (ns.use name)
  | .method e _ args _, ns => namesOfArguments args (e.names ns)
  | .apply e args _, ns => namesOfArguments args (e.names ns)
  | .block _ _, ns => ns.use "self"

def namesOfItems : List Expr → Names → Names
  | [], ns => ns
  | e :: es, ns => namesOfItems es (e.names ns)

def namesOfEntries : List (Expr × Expr) → Names → Names
  | [], ns => ns
  | (k, v) :: es, ns => namesOfEntries es (v.names (k.names ns))

def namesOfArguments : List Argument → Names → Names
  | [], ns => ns
  | a :: as, ns => namesOfArguments as (a.names ns)

def Argument.names : Argument → Names → Names
  | .plain e, ns => e.names ns
  | .spread e, ns => e.names ns
  | .named _ e, ns => e.names ns
  | .spreadNamed e, ns => e.names ns

end

mutual

def Target.bound : Target → Names → Names
  | .var name _, ns => ns.bind name
  | .field _ _ _, ns => ns
  | .tuple targets _, ns => boundByTargets targets ns

def boundByTargets : List Target → Names → Names
  | [], ns => ns
  | t :: ts, ns => boundByTargets ts (t.bound ns)

end

/-- The names of the parameters and their defaults; a block can be handed to the procedure. -/
def namesOfHead (params : List String) (defaults : List Expr) (ns : Names) : Names :=
  namesOfItems defaults (params.foldl (fun ns p ↦ ns.bind p) ns)

mutual

def Stmt.names : Stmt → Names → Names
  | .text _ _, ns => ns
  | .emit e _, ns => e.names ns
  | .loop target items only _ body otherwise _, ns =>
    let inner := fun ns : Names ↦
      let ns := target.bound (items.names (ns.bind "loop"))
      namesOfBody body (match only with
        | some e => e.names ns
        | none => ns)
    (ns.inScope inner).inScope (namesOfBody otherwise)
  | .cond test yes no, ns => ((test.names ns).inScope (namesOfBody yes)).inScope (namesOfBody no)
  | .scope assignments body, ns =>
    ns.inScope fun ns ↦ namesOfBody body
      (assignments.foldl (fun ns (a : Target × Expr) ↦ a.2.names (a.1.bound ns)) ns)
  | .set target e, ns => e.names (target.bound ns)
  | .setBlock target _ body, ns => (target.bound ns).inScope (namesOfBody body)
  | .escape _ body, ns => ns.inScope (namesOfBody body)
  | .filter _ body, ns => ns.inScope (namesOfBody body)
  | .block _ body _, ns => ns.inScope fun ns ↦ namesOfBody body (ns.bind "super")
  | .extend _ _, ns => ns
  | .embed _ _ _, ns => ns
  | .importAs _ target _, ns => target.bound ns
  | .importNames _ names _, ns =>
    names.foldl (fun ns (n : String × Nat × Target) ↦ n.2.2.bound ns) ns
  | .procedure name params defaults body _, ns =>
    namesOfBody body (namesOfHead params defaults ((ns.bind name).bind "caller"))
  | .callWith call params defaults body _, ns =>
    namesOfBody body (namesOfHead params defaults ((call.names ns).bind "caller"))
  | .perform call, ns => call.names ns

def namesOfBody : List Stmt → Names → Names
  | [], ns => ns
  | s :: ss, ns => namesOfBody ss (s.names ns)

end

/-- The free names of a procedure. -/
def freeNames (params : List String) (defaults : List Expr) (body : List Stmt) : List String :=
  (namesOfBody body (namesOfHead params defaults {})).free

end DeliveryCharts.Template
