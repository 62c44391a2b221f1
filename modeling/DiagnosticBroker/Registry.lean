import DiagnosticBroker.Assoc
import DiagnosticBroker.Path
import DiagnosticBroker.Settings.Basic
import DiagnosticBroker.Fault
import DiagnosticBroker.Text.Blank

/-!
# The table of backends

Which backend is used for which file extension. Extensions are kept in lower case with a point in
front; a later row replaces an earlier one for the same extension. Backends with the same command
share one process.

Results:
* `lookup?_insert`: what a row does to every later look-up.
-/

namespace DiagnosticBroker

open Json (Decoder Fields)

/-- A command line, by which running backends are told apart. -/
abbrev Command := List String

/-- How one backend is launched, and what it is used for. -/
structure Backend where
  command : Command
  extensions : List String
  languageId : String
deriving DecidableEq, Repr, Inhabited

/-- A command line as one text. -/
def Command.text (c : Command) : String := " ".intercalate c

namespace Backend

def decode : Decoder Backend :=
  Fields.record "BackendConfig"
    (Backend.mk <$> Fields.required "command" (Json.Decode.list Json.Decode.string) <*>
      Fields.required "extensions" (Json.Decode.list Json.Decode.string) <*>
      Fields.required "language_id" Json.Decode.string)

def encode (b : Backend) : Json :=
  .obj [("command", .arr (b.command.map .str)), ("extensions", .arr (b.extensions.map .str)),
    ("language_id", .str b.languageId)]

end Backend

/-- An extension without blanks around it, in lower case, with a point in front
(`normalize_extension`). -/
def normalizeExtension (extension : String) : String :=
  let lower := Text.lowercase (Text.trimmed extension)
  if lower.startsWith "." then lower else "." ++ lower

/-- A backend with its extensions in their kept form. -/
def Backend.new (command extensions : List String) (languageId : String) : Backend :=
  ⟨command, extensions.map normalizeExtension, languageId⟩

/-- The table of backends: the rows by extension, the last one first. -/
structure Registry where
  rows : List (String × Backend)
deriving DecidableEq, Repr

namespace Registry

def empty : Registry := ⟨[]⟩

/-- Puts a backend under an extension. -/
def insert (r : Registry) (extension : String) (b : Backend) : Registry :=
  ⟨(normalizeExtension extension, b) ::
    r.rows.filter fun row => row.1 ≠ normalizeExtension extension⟩

/-- The row under an extension in its kept form. -/
def lookup? (r : Registry) (extension : String) : Option Backend := r.rows.lookup extension

/-- The rows that are always there. -/
def builtIn : List (String × Backend) :=
  let typescript := ["typescript-language-server", "--stdio"]
  [(".ts", .new typescript [".ts", ".tsx"] "typescript"),
    (".tsx", .new typescript [".ts", ".tsx"] "typescriptreact"),
    (".js", .new typescript [".js", ".jsx"] "javascript"),
    (".jsx", .new typescript [".js", ".jsx"] "javascriptreact"),
    (".py", .new ["pylsp"] [".py"] "python"),
    (".zig", .new ["zls"] [".zig"] "zig")]

/-- The table with only the built-in rows. -/
def defaults : Registry := builtIn.foldl (fun r row => r.insert row.1 row.2) empty

/-- Adds the row of a settings file; its command must not be empty (`apply`). -/
def apply (r : Registry) (e : BackendEntry) : Except Fault Registry :=
  if e.command.isEmpty then
    .error (.protocol s!"Backend for '{e.extension}' has an empty command")
  else
    let extensions := if e.extensions.isEmpty then [e.extension] else e.extensions
    .ok (r.insert e.extension (.new e.command extensions e.languageId))

/-- Adds rows one after the other. -/
def applyAll (r : Registry) : List BackendEntry → Except Fault Registry
  | [] => .ok r
  | e :: es =>
    match r.apply e with
    | .ok r => applyAll r es
    | .error f => .error f

/-- The built-in table with the rows of settings files. -/
def ofEntries (entries : List BackendEntry) : Except Fault Registry := defaults.applyAll entries

/-- The backend for an extension, point included, in either case (`lookup`). -/
def find (r : Registry) (extension : String) : Except Fault Backend :=
  match r.lookup? (Text.lowercase extension) with
  | some b => .ok b
  | none => .error (.unsupportedExtension extension)

/-- The backend for a path. -/
def findPath (r : Registry) (path : String) : Except Fault Backend :=
  match Path.extension? path with
  | some e => r.find ("." ++ e)
  | none => r.find ""

/-- The extensions in order. -/
def extensions (r : Registry) : List String := (r.rows.map (·.1)).mergeSort (· ≤ ·)

/-- Whether a command line comes before another one or is the same. -/
def commandLe : Command → Command → Bool
  | [], _ => true
  | _ :: _, [] => false
  | a :: as, b :: bs => if a = b then commandLe as bs else a < b

/-- The different command lines in order. -/
def commands (r : Registry) : List Command :=
  ((r.rows.map fun row => row.2.command).mergeSort commandLe).eraseReps

theorem lookup?_insert (r : Registry) (e x : String) (b : Backend) :
    (r.insert e b).lookup? x = if x = normalizeExtension e then some b else r.lookup? x :=
  Assoc.lookup_put (normalizeExtension e) x b r.rows

end Registry

end DiagnosticBroker
