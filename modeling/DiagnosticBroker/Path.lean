import DiagnosticBroker.Uri

/-!
# Paths

A path is a text; what it names is told by its components. Empty components and `.` say nothing,
except a `.` at the very front of a path that does not begin at the root.

A place in the file tree is the list of names that lead to it from the root.
-/

namespace DiagnosticBroker.Path

/-- A component of a path. -/
inductive Component where
  | root
  | current
  | parent
  | name (name : String)
deriving DecidableEq, Repr

/-- Splits a text at each slash. -/
def splitSlash (acc : List Char) : List Char → List String
  | [] => [String.ofList acc.reverse]
  | c :: cs =>
    if c = '/' then String.ofList acc.reverse :: splitSlash [] cs else splitSlash (c :: acc) cs

/-- The component that a piece between slashes stands for, if any. -/
def componentOf? (piece : String) : Option Component :=
  if piece = "" || piece = "." then none
  else if piece = ".." then some .parent
  else some (.name piece)

def isAbsolute (path : String) : Bool := path.startsWith "/"

/-- The components of a path. -/
def components (path : String) : List Component :=
  let pieces := splitSlash [] path.toList
  let rest := pieces.filterMap componentOf?
  if isAbsolute path then .root :: rest
  else if pieces.head? = some "." then .current :: rest
  else rest

/-- A path within a directory; a path that begins at the root stays as it is. -/
def join (directory path : String) : String := Uri.absolute directory path

/-- The last component, if it is a name. -/
def fileName? (path : String) : Option String :=
  match (components path).getLast? with
  | some (.name n) => some n
  | _ => none

/-- The part of a name after its last point; a point at the very front does not count. -/
def extension? (path : String) : Option String :=
  match fileName? path with
  | none => none
  | some n =>
    let back := n.toList.reverse
    let stem := (back.dropWhile (· ≠ '.')).drop 1
    if back.contains '.' && !stem.isEmpty then
      some (String.ofList (back.takeWhile (· ≠ '.')).reverse)
    else none

/-- The text of a place in the file tree. -/
def ofNames (names : List String) : String := "/" ++ "/".intercalate names

end DiagnosticBroker.Path
