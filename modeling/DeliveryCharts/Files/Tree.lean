import DeliveryCharts.Files.Path
import DeliveryCharts.Text.Utf8

/-!
A directory with everything below it, as far as a run of the program can see and change it.
-/

namespace DeliveryCharts

/-- Why a file cannot be read or written. -/
inductive FileFault where
  | missing
  | exists
  | notDirectory
  | isDirectory
  | nameTooLong
  | badName
  | notText
  deriving DecidableEq, Repr

def FileFault.message : FileFault → String
  | missing => "No such file or directory (os error 2)"
  | «exists» => "File exists (os error 17)"
  | notDirectory => "Not a directory (os error 20)"
  | isDirectory => "Is a directory (os error 21)"
  | nameTooLong => "File name too long (os error 36)"
  | badName => "file name contained an unexpected NUL byte"
  | notText => "stream did not contain valid UTF-8"

/-- Entries stand in the order of their names, each name once. -/
inductive FileTree where
  | file (content : Text.Bytes)
  | directory (entries : List (String × FileTree))
  deriving Inhabited

namespace FileTree

open Files

def empty : FileTree := directory []

def isDirectory : FileTree → Bool
  | directory _ => true
  | file _ => false

def lookup (name : String) : List (String × FileTree) → Option FileTree
  | [] => none
  | (n, t) :: entries => if n = name then some t else lookup name entries

def insert (name : String) (t : FileTree) : List (String × FileTree) → List (String × FileTree)
  | [] => [(name, t)]
  | (n, u) :: entries =>
    if n = name then (name, t) :: entries
    else if name < n then (name, t) :: (n, u) :: entries
    else (n, u) :: insert name t entries

/-- A name may have this many bytes. -/
def maxNameLength : Nat := 255

/-- What stands at the end of the names; `above` are the directories that have been entered. -/
def walk : List FileTree → FileTree → List String → Except FileFault FileTree
  | _, t, [] => .ok t
  | _, file _, _ :: _ => .error .notDirectory
  | above, directory entries, name :: names =>
    if name = ".." then
      match above with
      | [] => .error .missing
      | t :: above => walk above t names
    else if name.utf8ByteSize > maxNameLength then .error .nameTooLong
    else
      match lookup name entries with
      | none => .error .missing
      | some t => walk (directory entries :: above) t names

def find (t : FileTree) (path : String) : Except FileFault FileTree :=
  if path.toList.contains '\x00' then .error .badName
  else if path.isEmpty || Path.isAbsolute path then .error .missing
  else do
    let found ← walk [] t (Path.names path)
    if Path.wantsDirectory path && !found.isDirectory then throw .notDirectory
    return found

def «exists» (t : FileTree) (path : String) : Bool := (t.find path).isOk

def isDirectoryAt (t : FileTree) (path : String) : Bool :=
  match t.find path with
  | .ok (directory _) => true
  | _ => false

def isFileAt (t : FileTree) (path : String) : Bool :=
  match t.find path with
  | .ok (file _) => true
  | _ => false

def read (t : FileTree) (path : String) : Except FileFault Text.Bytes := do
  match ← t.find path with
  | file content => return content
  | directory _ => throw .isDirectory

def readText (t : FileTree) (path : String) : Except FileFault String := do
  match Text.decode (← t.read path) with
  | .ok cs => return .ofList cs
  | .error _ => throw .notText

/-- The names of the files directly in a directory, in their order. -/
def filesIn (t : FileTree) (path : String) : List String :=
  match t.find path with
  | .ok (directory entries) => (entries.filter fun e ↦ !e.2.isDirectory).map Prod.fst
  | _ => []

/-- The tree with a change at the end of the names, below directories that exist or are made. -/
def update (change : Option FileTree → Except FileFault FileTree) :
    FileTree → List String → Except FileFault FileTree
  | t, [] => change (some t)
  | file _, _ :: _ => .error .notDirectory
  | directory entries, [name] => do
    return directory (insert name (← change (lookup name entries)) entries)
  | directory entries, name :: names => do
    let below := (lookup name entries).getD empty
    return directory (insert name (← update change below names) entries)

def makeDirectories (t : FileTree) (path : String) : Except FileFault FileTree :=
  update (fun
    | none => .ok empty
    | some (directory entries) => .ok (directory entries)
    | some (file _) => .error .exists) t (Path.names path)

/-- Writes a file below directories that exist or are made. -/
def write (t : FileTree) (path : String) (content : Text.Bytes) : Except FileFault FileTree :=
  update (fun
    | some (directory _) => .error .isDirectory
    | _ => .ok (file content)) t (Path.names path)

mutual

/-- All files with their paths below `path`. -/
def listing (path : String) : FileTree → List (String × Text.Bytes)
  | file content => [(path, content)]
  | directory entries => listingOfEntries path entries

def listingOfEntries (path : String) : List (String × FileTree) → List (String × Text.Bytes)
  | [] => []
  | (name, t) :: entries => listing (Path.join path name) t ++ listingOfEntries path entries

end

end FileTree

end DeliveryCharts
