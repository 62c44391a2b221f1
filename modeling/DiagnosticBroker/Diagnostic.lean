import DiagnosticBroker.Fault

/-!
# Diagnostics and reports

`Wire.Diagnostic` is a diagnostic as a backend sends it, `Diagnostic` one as it is reported, with a
severity between 1 and 4. A `Report` is the outcome of checking one file: diagnostics, or the text
of an error and no diagnostics.
-/

namespace DiagnosticBroker

open Json (Decoder Fields)

/-! ## Places in a text -/

/-- A place in a text, counted from zero. -/
structure Position where
  line : Nat
  character : Nat
deriving DecidableEq, Repr

/-- A stretch of a text. -/
structure Span where
  start : Position
  stop : Position
deriving DecidableEq, Repr

def Position.decode : Decoder Position :=
  Fields.record "Position"
    (Position.mk <$> Fields.required "line" Json.Decode.u32 <*>
      Fields.required "character" Json.Decode.u32)

def Position.encode (p : Position) : Json :=
  .obj [("line", .nat p.line), ("character", .nat p.character)]

def Span.decode : Decoder Span :=
  Fields.record "Range"
    (Span.mk <$> Fields.required "start" Position.decode <*> Fields.required "end" Position.decode)

def Span.encode (s : Span) : Json := .obj [("start", s.start.encode), ("end", s.stop.encode)]

/-! ## Diagnostics of backends -/

/-- A diagnostic as a backend sends it. The severity is not checked yet. -/
structure Wire.Diagnostic where
  range : Span
  severity : Option Int
  code : Option Json
  source : Option String
  message : String

def Wire.Diagnostic.decode : Decoder Wire.Diagnostic :=
  Fields.record "LspDiagnostic"
    (Wire.Diagnostic.mk <$> Fields.required "range" Span.decode <*>
      Fields.optional "severity" Json.Decode.i64 <*>
      Fields.optional "code" Json.Decode.value <*>
      Fields.optional "source" Json.Decode.string <*>
      Fields.required "message" Json.Decode.string)

def Wire.Diagnostic.encode (d : Wire.Diagnostic) : Json :=
  .objOf [some ("range", d.range.encode), d.severity.map fun n => ("severity", .int n),
    d.code.map fun j => ("code", j), d.source.map fun s => ("source", .str s),
    some ("message", .str d.message)]

/-! ## Severities -/

/-- How grave a diagnostic is. -/
inductive Severity where
  | error
  | warning
  | info
  | hint
deriving DecidableEq, Repr

namespace Severity

/-- The severities, the gravest first. -/
def all : List Severity := [error, warning, info, hint]

/-- The number by which backends name a severity. -/
def number : Severity → Nat
  | error => 1
  | warning => 2
  | info => 3
  | hint => 4

def label : Severity → String
  | error => "Error"
  | warning => "Warning"
  | info => "Info"
  | hint => "Hint"

/-- The severity with a number. -/
def ofNumber? (n : Int) : Option Severity := all.find? fun s => s.number = n

/-- The severity that a backend's number names. -/
def ofNumber (n : Int) : Except Fault Severity :=
  match ofNumber? n with
  | some s => .ok s
  | none => .error (.invalidSeverity n)

def decode : Decoder Severity := Json.Decode.choice (all.map fun s => (s.label, s))

def encode (s : Severity) : Json := .str s.label

end Severity

/-! ## Diagnostics as reported -/

/-- A diagnostic as it is reported. -/
structure Diagnostic where
  message : String
  severity : Severity
  line : Nat
  column : Nat
  source : Option String
deriving DecidableEq, Repr

/-- The report of a backend's diagnostic. Without a severity it is an error. -/
def Diagnostic.ofWire (d : Wire.Diagnostic) : Except Fault Diagnostic :=
  match d.severity with
  | none => .ok (reportAs .error)
  | some n =>
    match Severity.ofNumber n with
    | .ok s => .ok (reportAs s)
    | .error e => .error e
where
  /-- The diagnostic with a severity, at the place where its range starts. -/
  reportAs (s : Severity) : Diagnostic :=
    ⟨d.message, s, d.range.start.line, d.range.start.character, d.source⟩

/-- The reports of diagnostics, in order, or the first severity that is out of range. -/
def Diagnostic.ofWireAll : List Wire.Diagnostic → Except Fault (List Diagnostic)
  | [] => .ok []
  | d :: ds =>
    match ofWire d with
    | .error e => .error e
    | .ok r =>
      match ofWireAll ds with
      | .error e => .error e
      | .ok rs => .ok (r :: rs)

def Diagnostic.decode : Decoder Diagnostic :=
  Fields.record "Diagnostic"
    (Diagnostic.mk <$> Fields.required "message" Json.Decode.string <*>
      Fields.required "severity" Severity.decode <*>
      Fields.required "line" Json.Decode.u32 <*>
      Fields.required "column" Json.Decode.u32 <*>
      Fields.optional "source" Json.Decode.string)

def Diagnostic.encode (d : Diagnostic) : Json :=
  .objOf [some ("message", .str d.message), some ("severity", d.severity.encode),
    some ("line", .nat d.line), some ("column", .nat d.column),
    d.source.map fun s => ("source", .str s)]

/-! ## Reports -/

/-- The outcome of checking a file. -/
structure Report where
  path : String
  diagnostics : List Diagnostic
  error : Option String
deriving DecidableEq, Repr

namespace Report

def success (path : String) (diagnostics : List Diagnostic) : Report := ⟨path, diagnostics, none⟩

def failure (path error : String) : Report := ⟨path, [], some error⟩

def isSuccess (r : Report) : Bool := r.error.isNone

/-- How many diagnostics have a severity. -/
def count (r : Report) (s : Severity) : Nat := r.diagnostics.countP fun d => d.severity = s

/-- The lines for one diagnostic. -/
def diagnosticText (d : Diagnostic) : String :=
  s!"• {d.severity.label} at line {d.line}, column {d.column}: {d.message}\n" ++
    match d.source with
    | some s => s!"  Source: {s}\n"
    | none => ""

/-- The report as text. -/
def text (r : Report) : String :=
  s!"Validation results for {r.path}:\n" ++
    match r.error with
    | some e => s!"Error: {e}\n"
    | none =>
      if r.diagnostics.isEmpty then "No issues found\n"
      else "\nDiagnostics:\n" ++ String.join (r.diagnostics.map diagnosticText)

def decode : Decoder Report :=
  Fields.record "ValidationResult"
    (Report.mk <$> Fields.required "file_path" Json.Decode.string <*>
      Fields.defaulted "diagnostics" (Json.Decode.list Diagnostic.decode) [] <*>
      Fields.optional "error" Json.Decode.string)

def encode (r : Report) : Json :=
  .obj [("file_path", .str r.path), ("diagnostics", .arr (r.diagnostics.map Diagnostic.encode)),
    ("error", match r.error with | some e => .str e | none => .null)]

/-- The report as the result of a tool call. -/
def toolResult (r : Report) : Json :=
  .obj [("content", .arr [.obj [("type", .str "text"), ("text", .str r.text)]]),
    ("isError", .bool !r.isSuccess)]

end Report

end DiagnosticBroker
