import DeliveryCharts.Template.Read.Expr

/-!
Reading statements and whole templates.
-/

namespace DeliveryCharts.Template.Read

/-- Names that nothing can be assigned to. -/
def reservedNames : List String :=
  ["true", "True", "false", "False", "none", "None", "loop", "self"]

def assignedName : Read (String × Nat) := do
  let (s, line) ← name
  if reservedNames.contains s then fail
  return (s, line)

/-- The attributes of a name that are assigned to. -/
def fieldsRest : Nat → Expr → Target → Read Target
  | 0, _, _ => fail
  | n + 1, e, target => do
    if ← skipSymbol "." then
      let (s, _) ← name
      fieldsRest n (.field e s e.line) (.field e s e.line)
    else return target

def nameTarget (dotted : Bool) (n : Nat) : Read Target := do
  let (s, line) ← assignedName
  if dotted then fieldsRest n (.var s line) (.var s line) else return .var s line

mutual

/-- One target, or several with commas between them. -/
def targets : Nat → Read Target
  | 0 => fail
  | n + 1 => do
    let line ← nextLine
    let first ← target n
    if (← peek) = some (.symbol ",") then return .tuple (first :: (← targetsRest n)) line
    return first

def target : Nat → Read Target
  | 0 => fail
  | n + 1 => do
    if ← skipSymbol "(" then
      let t ← targets n
      expectSymbol ")"
      return t
    else nameTarget false n

/-- Targets behind a comma each; a comma may stand at the end. -/
def targetsRest : Nat → Read (List Target)
  | 0 => fail
  | n + 1 => do
    if !(← skipSymbol ",") then return []
    match ← peek with
    | some (.symbol ")") => return []
    | some .variableEnd => return []
    | some .blockEnd => return []
    | some (.name "in") => return []
    | _ =>
      let t ← target n
      return t :: (← targetsRest n)

end

/-- The parameters of a procedure; those with a default come last. -/
def parametersRest : Nat → Bool → Bool → Read (List String × List Expr)
  | 0, _, _ => fail
  | n + 1, first, defaulted => do
    if ← skipSymbol ")" then return ([], [])
    if !first then
      expectSymbol ","
      if ← skipSymbol ")" then return ([], [])
    let (s, _) ← assignedName
    if ← skipSymbol "=" then
      let e ← expr n
      let (params, defaults) ← parametersRest n false true
      return (s :: params, e :: defaults)
    else if defaulted then fail
    else
      let (params, defaults) ← parametersRest n false false
      return (s :: params, defaults)

/-- Whether something is said about the context of a template that is loaded; it makes no
difference. -/
def skipContext : Read Bool := do
  let without ← skipName "without"
  let given ← if without then pure true else skipName "with"
  if given then expectName "context"
  return given

def importedNames : Nat → Bool → Read (List (String × Nat × Target))
  | 0, _ => fail
  | n + 1, first => do
    if ← skipContext then return []
    if (← peek) = some .blockEnd then return []
    if !first then
      expectSymbol ","
      if (← peek) = some .blockEnd then return []
      if ← skipContext then return []
    let (s, line) ← assignedName
    let target ← if ← skipName "as" then nameTarget false n else pure (.var s line)
    return (s, line, target) :: (← importedNames n false)

/-- What a statement that stands alone is made of, behind its keyword. -/
def simple (n : Nat) (keyword : String) (line : Nat) : Read Stmt := do
  match keyword with
  | "extends" => return .extend (← expr n) line
  | "include" =>
    let e ← expr n
    let _ ← skipContext
    if ← skipName "ignore" then
      expectName "missing"
      let _ ← skipContext
      return .embed e true line
    else return .embed e false line
  | "import" =>
    let e ← expr n
    expectName "as"
    let t ← nameTarget false n
    let _ ← skipContext
    return .importAs e t line
  | "from" =>
    let e ← expr n
    expectName "import"
    return .importNames e (← importedNames n true) line
  | "do" =>
    let e ← expr n
    if !e.isCall then fail
    return .perform e
  | _ => fail

/-- Reads the body of a procedure. -/
def inProcedure (m : Read α) : Read α := do
  let before := (← get).inProcedure
  modify fun s ↦ { s with inProcedure := true }
  let a ← m
  modify fun s ↦ { s with inProcedure := before }
  return a

mutual

/-- Statements up to a keyword that ends them, which is not read, or up to the end. -/
def body : Nat → List String → Read (List Stmt)
  | 0, _ => fail
  | n + 1, ends => do
    match ← next with
    | none => return []
    | some (.data cs, line) => return .text (.ofList cs) line :: (← body n ends)
    | some (.variableStart, line) =>
      let e ← expr n
      expect .variableEnd
      return .emit e line :: (← body n ends)
    | some (.blockStart, _) =>
      let ended := match ← peek with
        | some (.name s) => ends.contains s
        | _ => false
      if (← peek).isNone then fail
      if ended then return []
      let s ← deeper (statement n)
      expect .blockEnd
      return s :: (← body n ends)
    | some _ => fail

/-- Statements up to the keyword, and the keyword. -/
def bodyTo : Nat → String → Read (List Stmt)
  | 0, _ => fail
  | n + 1, keyword => do
    expect .blockEnd
    let b ← body n [keyword]
    let _ ← next
    return b

def statement : Nat → Read Stmt
  | 0 => fail
  | n + 1 => do
    match ← next with
    | some (.name keyword, line) =>
      match keyword with
      | "for" => loop n line
      | "if" => cond n
      | "with" =>
        let assignments ← assignmentsRest n true
        return .scope assignments (← bodyTo n "endwith")
      | "set" => assignment n
      | "autoescape" =>
        let e ← expr n
        return .escape e (← bodyTo n "endautoescape")
      | "filter" =>
        let chain ← filterChain n none
        return .filter chain (← bodyTo n "endfilter")
      | "block" => block n line
      | "macro" =>
        let (s, _) ← name
        expectSymbol "("
        let (params, defaults) ← parametersRest n true false
        let b ← inProcedure (bodyTo n "endmacro")
        return .procedure s params defaults b line
      | "call" =>
        let (params, defaults) ←
          if ← skipSymbol "(" then parametersRest n true false else pure ([], [])
        let e ← expr n
        if !e.isCall then fail
        let b ← inProcedure (bodyTo n "endcall")
        return .callWith e params defaults b line
      | keyword => simple n keyword line
    | _ => fail

def loop : Nat → Nat → Read Stmt
  | 0, _ => fail
  | n + 1, line => do
    let t ← targets n
    expectName "in"
    let items ← level n 0
    let only ← if ← skipName "if" then some <$> expr n else pure none
    let recursive ← skipName "recursive"
    expect .blockEnd
    let b ← body n ["endfor", "else"]
    let otherwise ← if ← skipName "else" then
        expect .blockEnd
        body n ["endfor"]
      else pure []
    let _ ← next
    return .loop t items only recursive b otherwise line

def cond : Nat → Read Stmt
  | 0 => fail
  | n + 1 => do
    let test ← expr n
    expect .blockEnd
    let yes ← body n ["endif", "else", "elif"]
    match ← next with
    | some (.name "else", _) => return .cond test yes (← bodyTo n "endif")
    | some (.name "elif", _) => return .cond test yes [← cond n]
    | _ => return .cond test yes []

def assignmentsRest : Nat → Bool → Read (List (Target × Expr))
  | 0, _ => fail
  | n + 1, first => do
    if (← peek) = some .blockEnd then return []
    if !first then expectSymbol ","
    let t ← target n
    expectSymbol "="
    let e ← expr n
    return (t, e) :: (← assignmentsRest n false)

def assignment : Nat → Read Stmt
  | 0 => fail
  | n + 1 => do
    let grouped := (← peek) = some (.symbol "(")
    let t ← if grouped then target n else nameTarget true n
    let next? ← peek
    if !grouped && (next? = some .blockEnd || next? = some (.symbol "|")) then
      let filter ← if ← skipSymbol "|" then some <$> filterChain n none else pure none
      return .setBlock t filter (← bodyTo n "endset")
    else
      expectSymbol "="
      return .set t (← expr n)

def block : Nat → Nat → Read Stmt
  | 0, _ => fail
  | n + 1, line => do
    if (← get).inProcedure then fail
    let (s, _) ← name
    if (← get).names.contains s then fail
    modify fun st ↦ { st with names := s :: st.names }
    let b ← bodyTo n "endblock"
    match ← peek with
    | some (.name t) =>
      if t ≠ s then fail
      let _ ← next
    | _ => pure ()
    modify fun st ↦ { st with blocks := (s, b) :: st.blocks }
    return .block s b line

end

end Read

/-- Reads a template. The reading between two tokens is less than 32 calls deep. -/
def Source.read (name source : String) : Except Fault Source := do
  let tokens := Tokens.ofSource source
  let fuel := 32 * (tokens.list.length + 2)
  let (body, s) ← (Read.body fuel []).run { rest := tokens.list, fault := tokens.fault }
  return ⟨name, body, s.blocks⟩

end DeliveryCharts.Template
