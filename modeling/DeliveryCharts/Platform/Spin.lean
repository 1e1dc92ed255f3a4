import DeliveryCharts.Platform.Classify

/-!
The platform behind the `spin` program: each request is a call of it, and its exit code and its
output are the answer.
-/

namespace DeliveryCharts.Platform

open Text (Bytes)

structure Response where
  exit : Int
  stdout : Bytes
  stderr : Bytes
  deriving DecidableEq, Repr

/-- The arguments of a call, and what the file with the spec holds, if there is one. -/
structure Call where
  arguments : List String
  spec : Option Bytes := none
  deriving DecidableEq, Repr

/-- A program that can be called, or the reason why it cannot be started. -/
abbrev Program (σ : Type) := Call → σ → Except String Response × σ

inductive Action where
  | get
  | save
  | delete
  deriving DecidableEq, Repr

structure Spin where
  /-- The program's path. -/
  program : String
  config : String
  /-- Where the spec of an object that is saved is put. -/
  specPath : String

namespace Spin

def kindWord : Object → String
  | .application _ => "application"
  | .pipeline _ _ => "pipeline"

def actionWord : Action → String
  | .get => "get"
  | .save => "save"
  | .delete => "delete"

/-- The arguments of a request, behind the program's configuration. -/
def arguments (s : Spin) (o : Object) (a : Action) : List String :=
  [kindWord o, actionWord a] ++
    match a, o with
    | .save, _ => ["--file", s.specPath]
    | _, .application name => [name]
    | _, .pipeline app name => ["--application", app, "--name", name]

def call (s : Spin) (o : Object) (a : Action) (spec : Option Bytes) : Call :=
  ⟨["--config", s.config] ++ s.arguments o a, spec⟩

/-- What the program says: its errors, or else its output. -/
def Response.message (r : Response) : String :=
  let errors := Text.trimChars (Text.decodeLossy r.stderr)
  .ofList (if errors.isEmpty then Text.trimChars (Text.decodeLossy r.stdout) else errors)

def request (s : Spin) (p : Program σ) (o : Object) (a : Action) (spec : Option Bytes) :
    Request σ Bytes := do
  let (answer, after) := p (s.call o a spec) (← get)
  set after
  match answer with
  | .error cause => throw (.spawn s.program cause)
  | .ok r =>
    if r.exit = 0 then return r.stdout
    let command := Text.joinStrings " " ("spin" :: s.arguments o a)
    throw (classify o command (Response.message r))

def isBlank (output : Bytes) : Bool := (Text.decodeLossy output).all Text.isBlank

def client (s : Spin) (p : Program σ) : Client σ where
  get o := do
    try
      let body ← s.request p o .get none
      return if isBlank body then none else some body
    catch e =>
      if e.isNotFound then return none else throw e
  save o spec := discard (s.request p o .save spec)
  delete o := do
    try
      let _ ← s.request p o .delete none
      return .deleted
    catch e =>
      if e.isNotFound then return .absent else throw e

end Spin

/-- A program that answers as it is told, and then that nothing is found; its calls are kept. -/
structure Rehearsal where
  responses : List Response
  calls : List Call := []

namespace Rehearsal

def lastResponse : Response := ⟨1, [], Text.utf8String "404 Not Found\n"⟩

def program : Program Rehearsal := fun c r ↦
  match r.responses with
  | [] => (.ok lastResponse, { r with calls := r.calls ++ [c] })
  | a :: rest => (.ok a, { responses := rest, calls := r.calls ++ [c] })

/-- A program that is not there. -/
def absent : Program Rehearsal := fun _ r ↦ (.error "No such file or directory (os error 2)", r)

end Rehearsal

end DeliveryCharts.Platform
