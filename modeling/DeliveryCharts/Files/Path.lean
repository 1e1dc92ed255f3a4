import DeliveryCharts.Text.Lines

/-!
Paths, written with slashes.
-/

namespace DeliveryCharts.Files.Path

def pieces (path : String) : List (List Char) := Text.splitAll (· == '/') path.toList

/-- The names on the way; a point stays where one is. -/
def names (path : String) : List String :=
  ((pieces path).filter fun p ↦ !p.isEmpty && p ≠ ['.']).map String.ofList

def isAbsolute (path : String) : Bool := path.toList.head? = some '/'

/-- Only a directory can stand here: the last name is followed by a slash. -/
def wantsDirectory (path : String) : Bool :=
  match (pieces path).getLast? with
  | some [] => true
  | some ['.'] => true
  | _ => false

/-- The second path as seen from the first. -/
def join (path name : String) : String :=
  if isAbsolute name then name
  else if path.isEmpty || path.toList.getLast? = some '/' then path ++ name
  else path ++ "/" ++ name

def fileName? (path : String) : Option String := (names path).getLast?.filter (· ≠ "..")

/-- What follows the last point of a name, unless the name starts with it. -/
def extension? (name : String) : Option String :=
  match name.toList.reverse.span (· ≠ '.') with
  | (ending, '.' :: _ :: _) => some (.ofList ending.reverse)
  | _ => none

end DeliveryCharts.Files.Path
