import DiagnosticBroker.FileTree.Basic

/-!
# Allowed directories

Which files may be read: those below a directory of the allow list, after all links are followed.
The path is resolved first, then it must lie below an allowed directory, and only then is it told
whether it exists; so nothing can be learned of files outside.

A path that does not exist is resolved component by component: what exists is replaced by its place,
a link to something missing by where it leads, and what is missing stays as it is written. At most
forty such links are followed one behind the other.
-/

namespace DiagnosticBroker.Sandbox

open FileTree (pieces)

/-- How many links to something missing are followed one behind the other (`MAX_LINK_HOPS`). -/
def maxHops : Nat := 40

/-- Adds one piece of a path to a resolved place. `follow` tells where a link leads whose target is
missing. -/
def resolveStep (t : FileTree) (follow : Place → String → Option Place) (resolved : Place)
    (piece : String) : Place :=
  if FileTree.isBlank piece then resolved
  else if piece = ".." then resolved.dropLast
  else
    match t.realPlace (resolved ++ [piece]) with
    | .ok p => p
    | .error _ => (follow resolved piece).getD (resolved ++ [piece])

/-- The place that the pieces of an absolute path lead to (`resolve_with_budget`). -/
def resolvePieces (t : FileTree) (follow : Place → String → Option Place) (ps : List String) :
    Place :=
  match t.realPlace ps with
  | .ok p => p
  | .error _ => ps.foldl (resolveStep t follow) []

/-- Where a name in a resolved directory leads that exists only as a link to something missing; at
most `hops` such links are followed. -/
def followDangling (t : FileTree) : Nat → Place → String → Option Place
  | 0, _, _ => none
  | hops + 1, directory, name =>
    match t.linkAt? (directory ++ [name]) with
    | none => none
    | some target =>
      let start := FileTree.linkStart directory target
      some (resolvePieces t (followDangling t hops) (start ++ pieces target))

/-- The place that a path leads to; a relative path starts from `cwd` (`resolve`). -/
def resolve (t : FileTree) (cwd path : String) : Place :=
  resolvePieces t (followDangling t maxHops) (pieces (Path.join cwd path))

end Sandbox

/-- The resolved directories whose files may be read. -/
structure Sandbox where
  allowed : List Place
deriving DecidableEq, Repr

namespace Sandbox

/-- The allow list of some directories, which need not exist. -/
def ofDirectories (t : FileTree) (cwd : String) (directories : List String) :
    Except AccessFault Sandbox :=
  if directories.isEmpty then .error .noAllowedDirectories
  else .ok ⟨directories.map (resolve t cwd)⟩

/-- Whether a place lies below a directory, which itself does not count. -/
def isBelow (directory p : Place) : Bool := p ≠ directory && directory.isPrefixOf p

/-- Whether a place lies below an allowed directory. -/
def contains (s : Sandbox) (p : Place) : Bool := s.allowed.any fun d => isBelow d p

/-- The place that a path leads to, if it may be read and exists (`authorize`). -/
def authorize (s : Sandbox) (t : FileTree) (cwd path : String) : Except AccessFault Place :=
  let p := resolve t cwd path
  if !s.contains p then .error (.notAllowed (Path.ofNames p))
  else if !t.pathExists cwd (Path.ofNames p) then .error (.notFound (Path.ofNames p))
  else .ok p

end DiagnosticBroker.Sandbox
