import DiagnosticBroker.Fault
import DiagnosticBroker.Path

/-!
# The file tree

A tree of directories, files and symbolic links, as a value: what stands at which place. A place is
the list of names that lead to it from the root; the root itself is a directory.

`FileTree.walk` follows a path from a place name by name: a link is replaced by its target, `..`
leads to the parent of the place reached, and every step needs a directory to start from. At most
forty links are followed.

Two walks differ in how far they reach. The system itself goes on from directory to directory and
never looks at the text of the place it has come to (`FileTree.locate`). Whoever wants to know that
place asks the system about each place on the way by its text, and is refused once the text is too
long for a path (`FileTree.canonicalize`).

Results:
* `walk_nil`, `walk_blank`, `walk_parent`: the steps that name nothing.
-/

namespace DiagnosticBroker

/-- A place in the file tree: the names that lead to it from the root. -/
abbrev Place := List String

/-- What stands at a place. -/
inductive FileTree.Entry where
  | directory
  | file (content : ByteArray)
  /-- A symbolic link, with the text of its target. -/
  | link (target : String)

/-- The entries of a file tree; of several for one place the first counts. -/
structure FileTree where
  entries : List (Place × FileTree.Entry)

namespace FileTree

instance : Inhabited FileTree := ⟨⟨[]⟩⟩

/-- What stands at a place. -/
def entry? (t : FileTree) (p : Place) : Option Entry :=
  if p.isEmpty then some .directory else t.entries.lookup p

def isDirectory (t : FileTree) (p : Place) : Bool :=
  match t.entry? p with
  | some .directory => true
  | _ => false

/-! ## Walking along a path -/

/-- How many links are followed in one walk. -/
def maxLinks : Nat := 40

/-- The most bytes that a name may have. -/
def maxNameBytes : Nat := 255

/-- The most bytes that a path may have. -/
def maxPathBytes : Nat := 4095

/-- Whether a piece of a path names nothing, so that it leads nowhere else. -/
def isBlank (piece : String) : Bool := piece = "" || piece = "."

/-- The pieces of a path between its slashes. -/
def pieces (path : String) : List String := Path.splitSlash [] path.toList

/-- Where a link leads, seen from the directory that it stands in: a place to start from and the
pieces of the target. -/
def linkStart (directory : Place) (target : String) : Place :=
  if Path.isAbsolute target then [] else directory

/-- How far a walk may go: whether it may look at a place. -/
abbrev Reach := Place → Bool

/-- Every place is in reach. -/
def anywhere : Reach := fun _ => true

/-- The places with a text that is no longer than a path may be. -/
def nameable : Reach := fun p => (Path.ofNames p).utf8ByteSize ≤ maxPathBytes

/-- Follows the pieces of a path from a place; at most `links` links are followed on the way. No
entry has a name with a zero byte. -/
def walk (t : FileTree) (reach : Reach) (links : Nat) (here : Place) :
    List String → Except IoFault Place
  | [] => .ok here
  | piece :: rest =>
    if !t.isDirectory here then .error .notADirectory
    else if isBlank piece then walk t reach links here rest
    else if piece = ".." then walk t reach links here.dropLast rest
    else if piece.contains '\x00' then .error .nulInPath
    else if maxNameBytes < piece.utf8ByteSize || !reach (here ++ [piece]) then .error .nameTooLong
    else
      match t.entry? (here ++ [piece]) with
      | none => .error .notFound
      | some (.link target) =>
        match links with
        | 0 => .error .loop
        | links + 1 => walk t reach links (linkStart here target) (pieces target ++ rest)
      | some _ => walk t reach links (here ++ [piece]) rest
termination_by ps => (links, ps.length)

theorem walk_nil (t : FileTree) (reach : Reach) (links : Nat) (here : Place) :
    t.walk reach links here [] = .ok here := by
  simp [walk]

theorem walk_blank {t : FileTree} {here : Place} {piece : String} (reach : Reach) (links : Nat)
    (rest : List String) (hd : t.isDirectory here = true) (hb : isBlank piece = true) :
    t.walk reach links here (piece :: rest) = t.walk reach links here rest := by
  rw [walk]; simp [hd, hb]

theorem walk_parent {t : FileTree} {here : Place} (reach : Reach) (links : Nat)
    (rest : List String) (hd : t.isDirectory here = true) :
    t.walk reach links here (".." :: rest) = t.walk reach links here.dropLast rest := by
  rw [walk]; simp [hd, isBlank]

/-! ## Looking at paths -/

/-- The entry that the system finds under a path, by its place; a relative path starts from
`cwd`. -/
def locate (t : FileTree) (cwd path : String) : Except IoFault Place :=
  if path.isEmpty then .error .notFound
  else if path.contains '\x00' then .error .nulInPath
  else if maxPathBytes < path.utf8ByteSize then .error .nameTooLong
  else t.walk anywhere maxLinks [] (pieces (Path.join cwd path))

/-- Whether a path leads to anything. -/
def pathExists (t : FileTree) (cwd path : String) : Bool := (t.locate cwd path).isOk

/-- The place that the pieces of an absolute path lead to, found by asking about each place on the
way. -/
def realPlace (t : FileTree) (ps : List String) : Except IoFault Place :=
  t.walk nameable maxLinks [] ps

/-- The place that a path leads to, with all links followed; a relative path starts from `cwd`. -/
def canonicalize (t : FileTree) (cwd path : String) : Except IoFault Place :=
  if path.isEmpty then .error .notFound
  else if path.contains '\x00' then .error .nulInPath
  else t.realPlace (pieces (Path.join cwd path))

/-- The target of the link at a place, if there is a link and the text of the place is a path. -/
def linkAt? (t : FileTree) (p : Place) : Option String :=
  match p.getLast? with
  | none => none
  | some name =>
    if !nameable p then none
    else
      match t.walk anywhere maxLinks [] p.dropLast with
      | .error _ => none
      | .ok directory =>
        match t.entry? (directory ++ [name]) with
        | some (.link target) => some target
        | _ => none

/-- What a path leads to. -/
def open? (t : FileTree) (cwd path : String) : Except IoFault Entry :=
  match t.locate cwd path with
  | .error e => .error e
  | .ok p =>
    match t.entry? p with
    | some e => .ok e
    | none => .error .notFound

/-- The content of the file that a path leads to. -/
def content (t : FileTree) (cwd path : String) : Except IoFault ByteArray :=
  match t.open? cwd path with
  | .error e => .error e
  | .ok (.file bytes) => .ok bytes
  | .ok _ => .error .isDirectory

end FileTree

end DiagnosticBroker
