import DeliveryCharts.Template.Read.Basic

/-!
Reading expressions. Operators bind, from the weakest to the strongest: a choice with `if`, `or`,
`and`, `not`, comparisons, sums, `~`, products, powers, the sign; attributes, calls, filters and
tests follow an operand.
-/

namespace DeliveryCharts.Template.Read

/-- How the operands on a level of binding are joined by a token. -/
def joiner? : Nat → Token → Option (Expr → Expr → Expr)
  | 0, .name "or" => some fun e f ↦ .or e f f.line
  | 1, .name "and" => some fun e f ↦ .and e f f.line
  | 4, .symbol "+" => binary .add
  | 4, .symbol "-" => binary .sub
  | 5, .symbol "~" => binary .concat
  | 6, .symbol "*" => binary .mul
  | 6, .symbol "/" => binary .div
  | 6, .symbol "//" => binary .floorDiv
  | 6, .symbol "%" => binary .rem
  | 7, .symbol "**" => binary .pow
  | _, _ => none
where
  binary (op : Operator) : Option (Expr → Expr → Expr) := some fun e f ↦ .binary op e f f.line

def comparison? : Token → Option Operator
  | .symbol "==" => some .eq
  | .symbol "!=" => some .ne
  | .symbol "<" => some .lt
  | .symbol "<=" => some .le
  | .symbol ">" => some .gt
  | .symbol ">=" => some .ge
  | .name "in" => some .member
  | _ => none

/-- A call is named for what is called. -/
def callOf (e : Expr) (args : List Argument) (line : Nat) : Expr :=
  match e with
  | .var name _ => .call name args (Argument.lineAfter line args)
  | .field (.var "self" _) name _ => .block name line
  | .field e name _ => .method e name args (Argument.lineAfter e.line args)
  | e => .apply e args (Argument.lineAfter e.line args)

/-- A test takes its one argument without parentheses if it looks like an operand. -/
def startsArgument : Token → Bool
  | .name s => s ≠ "and" && s ≠ "or" && s ≠ "else" && s ≠ "is"
  | .text _ => true
  | .int _ => true
  | .float _ => true
  | .symbol s => ["+", "-", "[", "\x7b"].contains s
  | _ => false

def maxArguments : Nat := 2000

def listOf (items : List Expr) (line : Nat) : Expr :=
  .list items (items.getLast?.elim line Expr.line)

def mapOf (entries : List (Expr × Expr)) (line : Nat) : Expr :=
  .map entries (entries.getLast?.elim line fun e ↦ e.2.line)

mutual

def expr : Nat → Read Expr
  | 0 => fail
  | n + 1 => deeper (choice n)

def choice : Nat → Read Expr
  | 0 => fail
  | n + 1 => do choiceRest n (← level n 0)

def choiceRest : Nat → Expr → Read Expr
  | 0, _ => fail
  | n + 1, yes => do
    if !(← skipName "if") then return yes
    let test ← level n 0
    if ← skipName "else" then
      let no ← choice n
      choiceRest n (.choice test yes no no.line)
    else choiceRest n (.choice test yes (.const (.undefined true) yes.line) yes.line)

/-- An operand of the level's operators, and what they join to it. -/
def level : Nat → Nat → Read Expr
  | 0, _ => fail
  | n + 1, 2 => do
    if ← skipName "not" then
      let e ← level n 2
      return .not e e.line
    else level n 3
  | n + 1, 3 => do comparisons n (← level n 4)
  | n + 1, k => do
    if k ≥ 8 then operand n
    else chain n k (← level n (k + 1))

def chain : Nat → Nat → Expr → Read Expr
  | 0, _, _ => fail
  | n + 1, k, e => do
    match (← peek).bind (joiner? k) with
    | none => return e
    | some join =>
      let _ ← next
      chain n k (join e (← level n (k + 1)))

def comparisons : Nat → Expr → Read Expr
  | 0, _ => fail
  | n + 1, e => do
    if ← skipName "not" then
      expectName "in"
      let f ← level n 4
      comparisons n (.not (.binary .member e f f.line) f.line)
    else
      match (← peek).bind comparison? with
      | none => return e
      | some op =>
        let _ ← next
        let f ← level n 4
        comparisons n (.binary op e f f.line)

def operand : Nat → Read Expr
  | 0 => fail
  | n + 1 => do
    let line ← nextLine
    let e ← signed n
    let e ← suffixes n e line
    filters n e

/-- The sign binds more tightly than attributes and calls. -/
def signed : Nat → Read Expr
  | 0 => fail
  | n + 1 => do
    if ← skipSymbol "-" then
      let e ← signed n
      return .neg e e.line
    else deeper (primary n)

def primary : Nat → Read Expr
  | 0 => fail
  | n + 1 => do
    match ← next with
    | some (.name s, line) =>
      return match s with
        | "true" => .const (.bool true) line
        | "True" => .const (.bool true) line
        | "false" => .const (.bool false) line
        | "False" => .const (.bool false) line
        | "none" => .const .none line
        | "None" => .const .none line
        | s => .var s line
    | some (.text s, line) => return .const (.ofString s) line
    | some (.int z, line) => return .const (.int z) line
    | some (.float x, line) => return .const (.float x) line
    | some (.symbol "(", line) =>
      if ← skipSymbol ")" then return .list [] line
      let e ← expr n
      if (← peek) = some (.symbol ",") then
        let items ← itemsRest n ")"
        return listOf (e :: items) line
      else
        expectSymbol ")"
        return e
    | some (.symbol "[", line) =>
      if ← skipSymbol "]" then return .list [] line
      let e ← expr n
      let items ← itemsRest n "]"
      return listOf (e :: items) line
    | some (.symbol "\x7b", line) =>
      if ← skipSymbol "\x7d" then return .map [] line
      let first ← entry n
      let entries ← entriesRest n
      return mapOf (first :: entries) line
    | _ => fail

/-- Items behind a comma each, up to the closing symbol, before which a comma may stand. -/
def itemsRest : Nat → String → Read (List Expr)
  | 0, _ => fail
  | n + 1, close => do
    if ← skipSymbol close then return []
    expectSymbol ","
    if ← skipSymbol close then return []
    let e ← expr n
    return e :: (← itemsRest n close)

def entry : Nat → Read (Expr × Expr)
  | 0 => fail
  | n + 1 => do
    let key ← expr n
    expectSymbol ":"
    return (key, ← expr n)

def entriesRest : Nat → Read (List (Expr × Expr))
  | 0 => fail
  | n + 1 => do
    if ← skipSymbol "\x7d" then return []
    expectSymbol ","
    if ← skipSymbol "\x7d" then return []
    let e ← entry n
    return e :: (← entriesRest n)

/-- Attributes, items, slices and calls; a call without operands has the line of what comes before
its last suffix. -/
def suffixes : Nat → Expr → Nat → Read Expr
  | 0, _, _ => fail
  | n + 1, e, line => do
    let here ← nextLine
    match ← peek with
    | some (.symbol ".") =>
      let _ ← next
      let (s, _) ← name
      suffixes n (.field e s e.line) here
    | some (.symbol "[") =>
      let _ ← next
      suffixes n (← subscript n e) here
    | some (.symbol "(") =>
      let args ← arguments n
      suffixes n (callOf e args line) here
    | _ => return e

/-- What stands in brackets behind a value. -/
def subscript : Nat → Expr → Read Expr
  | 0, _ => fail
  | n + 1, e => do
    let start ← bound n
    if !(← skipSymbol ":") then
      expectSymbol "]"
      match start with
      | some index => return .item e index index.line
      | none => fail
    else
      let stop ← bound n
      let step ← if ← skipSymbol ":" then bound n else pure none
      expectSymbol "]"
      let line := ([start, stop, step].filterMap id).getLast?.elim e.line Expr.line
      let given := fun b : Option Expr ↦ b.getD (.const .none line)
      return .slice e (given start) (given stop) (given step) line

/-- The bound of a slice, if one is written. -/
def bound : Nat → Read (Option Expr)
  | 0 => fail
  | n + 1 => do
    match ← peek with
    | some (.symbol ":") => return none
    | some (.symbol "]") => return none
    | _ => return some (← expr n)

def arguments : Nat → Read (List Argument)
  | 0 => fail
  | n + 1 => do
    expectSymbol "("
    if ← skipSymbol ")" then return []
    argumentsFrom n 1 false

/-- A plain argument does not follow a named one. -/
def argumentsFrom : Nat → Nat → Bool → Read (List Argument)
  | 0, _, _ => fail
  | n + 1, count, afterNamed => do
    if count > maxArguments then fail
    let a ← argument n
    let isNamed := match a with
      | .named _ _ => true
      | .spreadNamed _ => true
      | _ => false
    let isPlain := match a with
      | .plain _ => true
      | _ => false
    if isPlain && afterNamed then fail
    if ← skipSymbol ")" then return [a]
    expectSymbol ","
    if ← skipSymbol ")" then return [a]
    return a :: (← argumentsFrom n (count + 1) (afterNamed || isNamed))

def argument : Nat → Read Argument
  | 0 => fail
  | n + 1 => do
    if ← skipSymbol "**" then return .spreadNamed (← expr n)
    if ← skipSymbol "*" then return .spread (← expr n)
    let e ← expr n
    match e with
    | .var s _ =>
      if ← skipSymbol "=" then return .named s (← level n 0)
      else return .plain e
    | _ => return .plain e

def optionalArguments : Nat → Read (List Argument)
  | 0 => fail
  | n + 1 => do
    if (← peek) = some (.symbol "(") then arguments n else return []

def filters : Nat → Expr → Read Expr
  | 0, _ => fail
  | n + 1, e => do
    if ← skipSymbol "|" then
      let (s, _) ← name
      let s ← dottedRest n s
      let args ← optionalArguments n
      filters n (.filter s e args (Argument.lineAfter e.line args))
    else if ← skipName "is" then
      let negated ← skipName "not"
      let (s, _) ← name
      let s ← dottedRest n s
      let args ← testArguments n
      let test := Expr.test s e args (Argument.lineAfter e.line args)
      filters n (if negated then .not test test.line else test)
    else return e

def testArguments : Nat → Read (List Argument)
  | 0 => fail
  | n + 1 => do
    match ← peek with
    | some (.symbol "(") => arguments n
    | some t =>
      if startsArgument t then
        let line ← nextLine
        let e ← signed n
        return [.plain (← suffixes n e line)]
      else return []
    | none => return []

end

/-- Filters that follow each other, applied to what a block hands to them. -/
def filterChain : Nat → Option Expr → Read Expr
  | 0, _ => fail
  | n + 1, e? => do
    if (← peek) = some .blockEnd then
      match e? with
      | some e => return e
      | none => fail
    if e?.isSome then expectSymbol "|"
    let (s, line) ← name
    let s ← dottedRest n s
    let args ← optionalArguments n
    let e := e?.getD (.given line)
    filterChain n (some (.filter s e args (Argument.lineAfter e.line args)))

end DeliveryCharts.Template.Read
