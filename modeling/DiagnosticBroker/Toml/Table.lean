import DiagnosticBroker.Json.Basic

/-!
# Tables of the settings format

A document is a table under construction. A table is *implicit* until a header names it, and
*dotted* if a key with points made it. A table that a header named, or that was written between
braces, cannot be extended by keys with points; no table is named twice by a header.
-/

namespace DiagnosticBroker.Toml

mutual

/-- What stands under a key. -/
inductive Item where
  | value (json : Json)
  | table (table : Table)
  /-- The tables that headers in double brackets have added, the last one first. -/
  | tables (tables : List Table)

/-- A table under construction. -/
inductive Table where
  | mk (isImplicit isDotted : Bool) (entries : List (String × Item))

end

namespace Table

def isImplicit : Table → Bool
  | mk i _ _ => i

def isDotted : Table → Bool
  | mk _ d _ => d

def entries : Table → List (String × Item)
  | mk _ _ es => es

/-- The empty table of a header or of a document. -/
def empty : Table := mk false false []

def get? (t : Table) (key : String) : Option Item := t.entries.lookup key

/-- Puts an item under a key. -/
def put (t : Table) (key : String) (item : Item) : Table :=
  mk t.isImplicit t.isDotted ((key, item) :: t.entries.filter fun e => e.1 ≠ key)

/-- Takes an item away. -/
def erase (t : Table) (key : String) : Table :=
  mk t.isImplicit t.isDotted (t.entries.filter fun e => e.1 ≠ key)

/-- Changes the table at the end of a path, which is made where it is missing. `dotted` tells that
the path comes from a key with points. -/
def descend {α : Type} (dotted : Bool) (leaf : Table → Option (Table × α)) :
    List String → Table → Option (Table × α)
  | [], t => leaf t
  | key :: path, t =>
    match t.get? key with
    | none => do
      let (child, a) ← descend dotted leaf path (mk true dotted [])
      return (t.put key (.table child), a)
    | some (.table child) =>
      if dotted && !child.isImplicit then none
      else do
        let (child, a) ← descend dotted leaf path child
        return (t.put key (.table child), a)
    | some (.tables (child :: others)) => do
      let (child, a) ← descend dotted leaf path child
      return (t.put key (.tables (child :: others)), a)
    | some _ => none

/-- Puts a value under a key, which may have points. -/
def insert (t : Table) (key : List String) (value : Json) : Option Table :=
  match key.getLast? with
  | none => none
  | some last =>
    let path := key.dropLast
    (descend true (leaf path last) path t).map (·.1)
where
  /-- Puts the value into the innermost table. -/
  leaf (path : List String) (last : String) (inner : Table) : Option (Table × Unit) :=
    if inner.isDotted = path.isEmpty || (inner.get? last).isSome then none
    else some (inner.put last (.value value), ())

end Table

mutual

/-- The value of an item. -/
def Item.toJson : Item → Json
  | .value j => j
  | .table t => t.toJson
  | .tables ts => .arr (Table.toJsonAll ts [])

/-- The object of a table. -/
def Table.toJson : Table → Json
  | .mk _ _ es => .obj (Item.toMembers es)

/-- The objects of tables, given the last one first. -/
def Table.toJsonAll : List Table → List Json → List Json
  | [], acc => acc
  | t :: ts, acc => Table.toJsonAll ts (t.toJson :: acc)

def Item.toMembers : List (String × Item) → List (String × Json)
  | [] => []
  | (key, item) :: rest => (key, item.toJson) :: Item.toMembers rest

end

/-! ## Documents in parts -/

/-- A statement of a document. -/
inductive Statement where
  | pair (key : List String) (value : Json)
  /-- A header: the pairs that follow belong to this table. -/
  | header (path : List String)
  /-- A header in double brackets: the pairs that follow belong to a new table of this list. -/
  | listHeader (path : List String)

/-- A document in parts: all finished tables, and the one that pairs go to, with its place. -/
structure Draft where
  root : Table
  current : Table
  path : List String
  inList : Bool

namespace Draft

def empty : Draft := ⟨.empty, .empty, [], false⟩

/-- Puts the current table into its place. -/
def finish (d : Draft) : Option Table :=
  match d.path.getLast? with
  | none => some d.current
  | some last =>
    (Table.descend false (place last) d.path.dropLast d.root).map (·.1)
where
  /-- Puts the current table into the innermost one of its path. -/
  place (last : String) (parent : Table) : Option (Table × Unit) :=
    match parent.get? last with
    | none =>
      some (parent.put last (if d.inList then .tables [d.current] else .table d.current), ())
    | some (.tables ts) =>
      if d.inList then some (parent.put last (.tables (d.current :: ts)), ()) else none
    | some (.table t) =>
      if d.inList || !t.isImplicit then none else some (parent.put last (.table d.current), ())
    | some (.value _) => none

/-- Opens the table of a header. -/
def openTable (d : Draft) (path : List String) : Option Draft := do
  let root ← d.finish
  let last ← path.getLast?
  let (root, current) ← Table.descend false (take last) path.dropLast root
  return ⟨root, current, path, false⟩
where
  /-- Takes out the table with this name if it was only implied so far. -/
  take (last : String) (parent : Table) : Option (Table × Table) :=
    match parent.get? last with
    | none => some (parent, .empty)
    | some (.table t) =>
      if t.isImplicit && !t.isDotted then some (parent.erase last, .mk false false t.entries)
      else none
    | some _ => none

/-- Opens a new table of a list. -/
def openList (d : Draft) (path : List String) : Option Draft := do
  let root ← d.finish
  let last ← path.getLast?
  let (root, _) ← Table.descend false (check last) path.dropLast root
  return ⟨root, .empty, path, true⟩
where
  /-- Checks that the name is free or names a list. -/
  check (last : String) (parent : Table) : Option (Table × Unit) :=
    match parent.get? last with
    | none => some (parent, ())
    | some (.tables _) => some (parent, ())
    | some _ => none

/-- Carries out one statement. -/
def apply (d : Draft) : Statement → Option Draft
  | .pair key value => do return { d with current := ← d.current.insert key value }
  | .header path => d.openTable path
  | .listHeader path => d.openList path

end Draft

end DiagnosticBroker.Toml
