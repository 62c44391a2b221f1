import DiagnosticBroker.Toml.Scalar
import DiagnosticBroker.Toml.Table

/-!
# Reading settings documents

`Toml.read?` reads a TOML document as the object that it stands for.
-/

namespace DiagnosticBroker.Toml

mutual

/-- Reads a value. `depth` bounds the nesting of arrays and braces, `fuel` the number of steps. -/
def readValue (depth : Nat) : Nat → List Char → Option (Json × List Char)
  | 0, _ => none
  | fuel + 1, cs =>
    match cs with
    | '"' :: _ => (string cs).map fun (s, rest) => (.str s, rest)
    | '\'' :: _ => (string cs).map fun (s, rest) => (.str s, rest)
    | '[' :: rest =>
      match depth with
      | 0 => none
      | depth + 1 => readItems depth fuel [] rest
    | '\x7b' :: rest =>
      match depth with
      | 0 => none
      | depth + 1 =>
        match skipSpace rest with
        | '\x7d' :: rest => some (.obj [], rest)
        | rest => readPairs depth fuel .empty rest
    | cs => plainValue cs

/-- Reads the items of an array up to its closing bracket. -/
def readItems (depth : Nat) : Nat → List Json → List Char → Option (Json × List Char)
  | 0, _, _ => none
  | fuel + 1, acc, cs =>
    match skipLines (cs.length + 1) cs with
    | ']' :: rest => some (.arr acc.reverse, rest)
    | cs =>
      match readValue depth fuel cs with
      | none => none
      | some (j, rest) =>
        match skipLines (rest.length + 1) rest with
        | ',' :: rest => readItems depth fuel (j :: acc) rest
        | ']' :: rest => some (.arr (j :: acc).reverse, rest)
        | _ => none

/-- Reads the pairs between braces up to the closing one. -/
def readPairs (depth : Nat) : Nat → Table → List Char → Option (Json × List Char)
  | 0, _, _ => none
  | fuel + 1, t, cs =>
    match key [] maxDepth cs with
    | some (path, '=' :: rest) =>
      match readValue depth fuel (skipSpace rest) with
      | none => none
      | some (j, rest) =>
        match t.insert path j with
        | none => none
        | some t =>
          match skipSpace rest with
          | ',' :: rest => readPairs depth fuel t rest
          | '\x7d' :: rest => some (t.toJson, rest)
          | _ => none
    | _ => none

end

/-- Reads one statement and the end of its line. -/
def readStatement (cs : List Char) : Option (Statement × List Char) :=
  match cs with
  | '[' :: '[' :: rest =>
    match key [] maxDepth rest with
    | some (path, ']' :: ']' :: rest) => (endLine? rest).map fun rest => (.listHeader path, rest)
    | _ => none
  | '[' :: rest =>
    match key [] maxDepth rest with
    | some (path, ']' :: rest) => (endLine? rest).map fun rest => (.header path, rest)
    | _ => none
  | cs =>
    match key [] maxDepth cs with
    | some (path, '=' :: rest) =>
      match readValue maxDepth (rest.length + 1) (skipSpace rest) with
      | some (j, rest) => (endLine? rest).map fun rest => (.pair path j, rest)
      | none => none
    | _ => none

/-- Reads and carries out the statements of a document; each takes one step of `fuel`. -/
def readStatements : Nat → Draft → List Char → Option Draft
  | 0, _, _ => none
  | fuel + 1, d, cs =>
    match skipLines (cs.length + 1) cs with
    | [] => some d
    | cs =>
      match readStatement cs with
      | none => none
      | some (s, rest) =>
        match d.apply s with
        | none => none
        | some d => readStatements fuel d rest

/-- Leaves out a byte order mark. -/
def skipMark : List Char → List Char
  | '\uFEFF' :: rest => rest
  | cs => cs

/-- Reads a document as an object. -/
def read? (cs : List Char) : Option Json := do
  let cs := skipMark cs
  let d ← readStatements (cs.length + 1) .empty cs
  return (← d.finish).toJson.canonical

end DiagnosticBroker.Toml
