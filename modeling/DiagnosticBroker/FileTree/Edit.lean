import DiagnosticBroker.FileTree.Basic

/-!
# Editing a file tree

Making directories, files and links, and removing what stands at a place. Directories on the way to
a new entry are made as needed, and links on the way are followed.
-/

namespace DiagnosticBroker.FileTree

/-- Removes a place and all below it. -/
def erase (t : FileTree) (p : Place) : FileTree :=
  ⟨t.entries.filter fun e => !p.isPrefixOf e.1⟩

/-- Puts an entry at a place, instead of what stands there. -/
def set (t : FileTree) (p : Place) (e : Entry) : FileTree :=
  ⟨(p, e) :: t.entries.filter fun e => e.1 ≠ p⟩

/-- Follows the pieces of a path and makes the directories that are missing. -/
def makeWay (t : FileTree) (links : Nat) (here : Place) : List String → FileTree × Place
  | [] => (t, here)
  | piece :: rest =>
    if isBlank piece then makeWay t links here rest
    else if piece = ".." then makeWay t links here.dropLast rest
    else
      match t.entry? (here ++ [piece]) with
      | none => makeWay (t.set (here ++ [piece]) .directory) links (here ++ [piece]) rest
      | some (.link target) =>
        match links with
        | 0 => (t, here)
        | links + 1 => makeWay t links (linkStart here target) (pieces target ++ rest)
      | some _ => makeWay t links (here ++ [piece]) rest
termination_by ps => (links, ps.length)

/-- Makes the directory that a path names, and those above it. -/
def makeDirectory (t : FileTree) (cwd path : String) : FileTree :=
  (t.makeWay maxLinks [] (pieces (Path.join cwd path))).1

/-- The place where a path puts a new entry: the directory it leads to, which is made if it is
missing, and the last name. -/
def makeParent (t : FileTree) (cwd path : String) : FileTree × Place :=
  let names := (pieces (Path.join cwd path)).filter fun p => !isBlank p
  let (t, directory) := t.makeWay maxLinks [] names.dropLast
  (t, directory ++ names.getLast?.toList)

/-- Writes through links: the place that is written when the entry at `p` is opened for writing. -/
def writePlace (t : FileTree) : Nat → Place → Place
  | 0, p => p
  | links + 1, p =>
    match t.entry? p with
    | some (.link target) =>
      let names := (pieces target).filter fun n => !isBlank n
      match t.walk anywhere maxLinks (linkStart p.dropLast target) names.dropLast with
      | .ok directory => writePlace t links (directory ++ names.getLast?.toList)
      | .error _ => p
    | _ => p

/-- Writes a file. -/
def writeFile (t : FileTree) (cwd path : String) (content : ByteArray) : FileTree :=
  let (t, p) := t.makeParent cwd path
  t.set (t.writePlace maxLinks p) (.file content)

/-- Makes a link, if nothing stands in its place. -/
def makeLink (t : FileTree) (cwd path target : String) : FileTree :=
  let (t, p) := t.makeParent cwd path
  match t.entry? p with
  | none => t.set p (.link target)
  | some _ => t

/-- Removes the file, link or directory that a path names; a link itself, not what it leads to. -/
def remove (t : FileTree) (cwd path : String) : FileTree :=
  let (t, p) := t.makeParent cwd path
  t.erase p

/-- An edit of a file tree. -/
inductive Edit where
  | directory (path : String)
  | file (path : String) (content : ByteArray)
  | link (path target : String)
  | remove (path : String)

/-- Carries out an edit. -/
def edit (cwd : String) (t : FileTree) : Edit → FileTree
  | .directory path => t.makeDirectory cwd path
  | .file path content => t.writeFile cwd path content
  | .link path target => t.makeLink cwd path target
  | .remove path => t.remove cwd path

/-- The tree that holds nothing but a directory and those above it. -/
def bare (cwd : String) : FileTree := (⟨[]⟩ : FileTree).makeDirectory "/" cwd

end DiagnosticBroker.FileTree
