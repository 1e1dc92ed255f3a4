import DeliveryCharts.Cli.Run

/-!
The program. The files that it works on come as one JSON object on standard input, each text under
its path; what it writes goes below the working directory. Programs of the platform cannot be
started from here.
-/

open DeliveryCharts

namespace DeliveryCharts.Program

def addFile (files : FileTree) (path text : String) : FileTree :=
  let added :=
    if Files.Path.wantsDirectory path then files.makeDirectories path
    else files.write path (Text.utf8String text)
  added.toOption.getD files

/-- The files of a JSON object; an empty text stands for none. -/
def filesOf (input : String) : Except String FileTree :=
  if (Text.trim input).isEmpty then .ok .empty
  else
    match Json.parse input with
    | .ok (.obj ms) => .ok (ms.foldl (fun t m ↦ addFile t m.1 (m.2.str?.getD "")) .empty)
    | .ok _ => .error "the files are no JSON object"
    | .error e => .error e.message

def unavailable : Platform.Program Unit := fun _ s ↦ (.error "programs cannot be started", s)

def environment : IO (Cli.Environment Unit) := do
  return {
    spinBin := ← IO.getEnv "SPINFORGE_SPIN_BIN"
    spinConfig := ← IO.getEnv "SPINFORGE_SPIN_CONFIG"
    home := ← IO.getEnv "HOME"
    specPath := "spec.json"
    program := fun _ ↦ unavailable }

def directoryOf (path : String) : String :=
  Text.joinStrings "/" (Files.Path.names path).dropLast

/-- The files that were not there before, or are no longer the same. -/
def newFiles (before after : FileTree) : List (String × Text.Bytes) :=
  (after.listing "").filter fun f ↦ (before.read f.1).toOption != some f.2

def save (path : String) (content : Text.Bytes) : IO Unit := do
  let directory := directoryOf path
  if !directory.isEmpty then IO.FS.createDirAll directory
  IO.FS.writeBinFile path ⟨content.toArray⟩

partial def readAll (input : IO.FS.Stream) (read : String) : IO String := do
  let line ← input.getLine
  if line.isEmpty then return read else readAll input (read ++ line)

def finish (files : FileTree) (ending : Cli.Ending Unit) : IO UInt32 := do
  IO.print ending.session.printed
  for (path, content) in newFiles files ending.session.files do
    save path content
  match ending.failure with
  | some f =>
    IO.eprintln f.text
    match f.help with
    | some help => IO.eprintln s!"help: {help}"
    | none => pure ()
  | none => pure ()
  return UInt32.ofNat ending.exit

end DeliveryCharts.Program

open DeliveryCharts.Program in
def main (arguments : List String) : IO UInt32 := do
  match filesOf (← readAll (← IO.getStdin) "") with
  | .error cause =>
    IO.eprintln cause
    return 5
  | .ok files => finish files (Cli.run (← environment) files () arguments)
