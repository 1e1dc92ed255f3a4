import DeliveryCharts.Chart

/-!
Reading the arguments of the program: switches by a long name or a letter, the words of a command,
and its operands.
-/

namespace DeliveryCharts.Cli

/-- What a switch takes. Paths are not empty, and lists of them are written with commas. -/
inductive Taking where
  | nothing
  | text
  | texts
  | path
  | paths
  deriving DecidableEq, Repr

structure Switch where
  name : String
  letter : Option Char := none
  taking : Taking := .nothing
  deriving DecidableEq, Repr

inductive Verb where
  | plan
  | apply
  | template
  | install
  | uninstall
  | delete
  | deleteApplication
  | deletePipeline
  deriving DecidableEq, Repr

namespace Verb

def words : Verb → List String
  | plan => ["plan"]
  | apply => ["apply"]
  | template => ["template"]
  | install => ["install"]
  | uninstall => ["uninstall"]
  | delete => ["delete"]
  | deleteApplication => ["delete", "application"]
  | deletePipeline => ["delete", "pipeline"]

def all : List Verb :=
  [plan, apply, template, install, uninstall, delete, deleteApplication, deletePipeline]

/-- The command whose words are those of `before` and one more. -/
def next? (before : Option Verb) (word : String) : Option Verb :=
  all.find? fun v ↦ v.words == before.elim [] words ++ [word]

def takesName : Verb → Bool
  | deleteApplication => true
  | deletePipeline => true
  | _ => false

def file : Switch := ⟨"file", some 'f', .path⟩

def noPlan : Switch := ⟨"no-plan", none, .nothing⟩

def rendering : List Switch :=
  [⟨"chart", some 'c', .path⟩, ⟨"values", some 'f', .paths⟩, ⟨"set", none, .texts⟩,
    ⟨"exclude-default-values", none, .nothing⟩]

def switches : Verb → List Switch
  | plan => [file]
  | apply => [file, noPlan]
  | template => rendering ++ [⟨"full-render", none, .nothing⟩, ⟨"output", some 'o', .path⟩]
  | install => rendering ++ [⟨"dry-run", none, .nothing⟩, noPlan]
  | uninstall => rendering
  | delete => [file]
  | deleteApplication => []
  | deletePipeline => [⟨"application", some 'a', .text⟩]

end Verb

/-- The switches that every command has. -/
def globalSwitches : List Switch :=
  [⟨"verbosity", some 'v', .text⟩, ⟨"spin-bin", none, .path⟩, ⟨"spin-config", none, .path⟩,
    ⟨"help", some 'h', .nothing⟩, ⟨"version", some 'V', .nothing⟩]

/-- What is answered instead of running a command. -/
inductive Reply where
  | version (words : List String)
  | help
  | refusal
  deriving DecidableEq, Repr

/-- What has been read: the command so far, the switches given to it and to the words before its
last one, and its operands. -/
structure Reading where
  verb : Option Verb := none
  outer : List (String × String) := []
  here : List (String × String) := []
  operands : List String := []

namespace Reading

def switches (r : Reading) : List Switch := globalSwitches ++ r.verb.elim [] Verb.switches

/-- Gives a value to a switch; only switches for lists are given twice. -/
def give (r : Reading) (s : Switch) (v : String) : Except Reply Reading :=
  let add := fun vs ↦ Except.ok { r with here := r.here ++ vs.map fun v ↦ (s.name, v) }
  let once := !r.here.any (·.1 == s.name)
  match s.taking with
  | .texts => add [v]
  | .paths =>
    let paths := (Text.splitAll (· == ',') v.toList).map String.ofList
    if paths.any String.isEmpty then .error .refusal else add paths
  | .path => if once && !v.isEmpty then add [v] else .error .refusal
  | .text => if once then add [v] else .error .refusal
  | .nothing =>
    if s.name == "help" then .error .help
    else if s.name == "version" then .error (.version (r.verb.elim [] Verb.words))
    else if once then add [v]
    else .error .refusal

/-- The letters of an argument; the last switch can be without its value. -/
def letters (r : Reading) : List Char → Except Reply (Reading × Option Switch)
  | [] => .ok (r, none)
  | c :: cs =>
    match r.switches.find? (·.letter == some c), cs with
    | none, _ => .error .refusal
    | some s, cs =>
      if s.taking = .nothing then do letters (← r.give s "") cs
      else
        match cs with
        | [] => .ok (r, some s)
        | '=' :: v => do return (← r.give s (.ofList v), none)
        | v => do return (← r.give s (.ofList v), none)

/-- A long switch, with the value behind an equals sign. -/
def long (r : Reading) (argument : List Char) : Except Reply (Reading × Option Switch) :=
  let (name, v?) := match Text.splitOnce? ['='] argument with
    | some (name, v) => (name, some (String.ofList v))
    | none => (argument, none)
  match r.switches.find? (·.name == String.ofList name), v? with
  | none, _ => .error .refusal
  | some s, some v =>
    if s.taking = .nothing then .error .refusal else do return (← r.give s v, none)
  | some s, none =>
    if s.taking = .nothing then do return (← r.give s "", none) else .ok (r, some s)

/-- A word of the command or an operand. Behind a switch, `delete` has no more words. -/
def word (r : Reading) (w : String) : Except Reply Reading :=
  let closed := r.verb = some .delete && !r.here.isEmpty
  match if closed then none else Verb.next? r.verb w with
  | some v => .ok { verb := some v, outer := r.outer ++ r.here }
  | none =>
    if r.verb.any Verb.takesName && r.operands.isEmpty then .ok { r with operands := [w] }
    else if w = "help" && (r.verb.isNone || (r.verb = some .delete && !closed)) then .error .help
    else .error .refusal

def isSwitch (argument : String) : Bool :=
  match argument.toList with
  | '-' :: _ :: _ => true
  | _ => false

def operandsOnly (r : Reading) (words : List String) : Except Reply Reading :=
  if words.length ≤ (if r.verb.any Verb.takesName then 1 else 0) - r.operands.length then
    .ok { r with operands := r.operands ++ words }
  else .error .refusal

def read (r : Reading) : List String → Except Reply Reading
  | [] => .ok r
  | argument :: rest =>
    let behind := fun (r : Reading) (pending : Option Switch) ↦
      match pending, rest with
      | none, rest => read r rest
      | some _, [] => .error .refusal
      | some s, v :: rest =>
        if isSwitch v then .error .refusal else do read (← r.give s v) rest
    match argument.toList with
    | ['-', '-'] => r.operandsOnly rest
    | '-' :: '-' :: cs => do
      let (r, pending) ← r.long cs
      behind r pending
    | '-' :: c :: cs => do
      let (r, pending) ← r.letters (c :: cs)
      behind r pending
    | _ => do read (← r.word argument) rest

/-- The value given last, nearest to the end of the command. -/
def value? (r : Reading) (name : String) : Option String :=
  ((r.outer ++ r.here).reverse.find? (·.1 == name)).map Prod.snd

def values (r : Reading) (name : String) : List String :=
  (r.here.filter (·.1 == name)).map Prod.snd

def has (r : Reading) (name : String) : Bool := r.here.any (·.1 == name)

/-- The value of a switch that may not be missing. -/
def need (r : Reading) (name : String) : Except Reply String :=
  match r.value? name with
  | some v => .ok v
  | none => .error .refusal

def operand (r : Reading) : Except Reply String :=
  match r.operands with
  | v :: _ => .ok v
  | [] => .error .refusal

end Reading

/-- The chart to render, and where its values come from. -/
structure Rendering where
  chart : String
  sources : Values.Sources

inductive Command where
  | plan (file : String)
  | apply (file : String) (noPlan : Bool)
  | template (r : Rendering) (full : Bool) (output : Option String)
  | install (r : Rendering) (dryRun noPlan : Bool)
  | uninstall (r : Rendering)
  | deleteFile (file : String)
  | deleteApplication (name : String)
  | deletePipeline (application name : String)
  | deleteNothing

/-- A command, and the program behind the platform as far as the arguments say it. -/
structure Invocation where
  command : Command
  spinBin : Option String
  spinConfig : Option String

namespace Invocation

def rendering (r : Reading) : Except Reply Rendering := do
  return ⟨← r.need "chart", ⟨r.has "exclude-default-values", r.values "values", r.values "set"⟩⟩

def commandOf (r : Reading) : Except Reply Command := do
  match r.verb with
  | none => throw .refusal
  | some .plan => return .plan (← r.need "file")
  | some .apply => return .apply (← r.need "file") (r.has "no-plan")
  | some .template =>
    return .template (← rendering r) (r.has "full-render") (r.value? "output")
  | some .install => return .install (← rendering r) (r.has "dry-run") (r.has "no-plan")
  | some .uninstall => return .uninstall (← rendering r)
  | some .delete =>
    match r.value? "file" with
    | some file => return .deleteFile file
    | none => return .deleteNothing
  | some .deleteApplication => return .deleteApplication (← r.operand)
  | some .deletePipeline => return .deletePipeline (← r.need "application") (← r.operand)

def ofArguments (arguments : List String) : Except Reply Invocation := do
  let r ← Reading.read {} arguments
  return ⟨← commandOf r, r.value? "spin-bin", r.value? "spin-config"⟩

end Invocation

end DeliveryCharts.Cli
