import DiagnosticBroker.Diagnostic

/-!
# Messages about documents

The parameters of the notifications that open, change and close a document at a backend, and of
those by which the backend publishes its diagnostics and writes to the log.
-/

namespace DiagnosticBroker.Wire

open Json (Decoder Fields)

/-! ## Announcing documents -/

/-- The document that is opened. -/
structure DidOpen where
  uri : String
  languageId : String
  version : Int
  text : String
deriving DecidableEq, Repr

def DidOpen.method : String := "textDocument/didOpen"

def DidOpen.decode : Decoder DidOpen :=
  Fields.record "DidOpenTextDocumentParams"
    (Fields.required "textDocument" (Fields.record "TextDocumentItem"
      (DidOpen.mk <$> Fields.required "uri" Json.Decode.string <*>
        Fields.required "languageId" Json.Decode.string <*>
        Fields.required "version" Json.Decode.i32 <*>
        Fields.required "text" Json.Decode.string)))

def DidOpen.encode (d : DidOpen) : Json :=
  .obj [("textDocument", .obj [("uri", .str d.uri), ("languageId", .str d.languageId),
    ("version", .int d.version), ("text", .str d.text)])]

/-- The document that is changed, with its whole new text; each change replaces all. -/
structure DidChange where
  uri : String
  version : Int
  texts : List String
deriving DecidableEq, Repr

def DidChange.method : String := "textDocument/didChange"

def DidChange.decode : Decoder DidChange :=
  Fields.record "DidChangeTextDocumentParams"
    ((fun (d : String × Int) ts => DidChange.mk d.1 d.2 ts) <$>
      Fields.required "textDocument" (Fields.record "VersionedTextDocumentIdentifier"
        (Prod.mk <$> Fields.required "uri" Json.Decode.string <*>
          Fields.required "version" Json.Decode.i32)) <*>
      Fields.required "contentChanges" (Json.Decode.list
        (Fields.record "TextDocumentContentChangeEvent"
          (Fields.required "text" Json.Decode.string))))

def DidChange.encode (d : DidChange) : Json :=
  .obj [("textDocument", .obj [("uri", .str d.uri), ("version", .int d.version)]),
    ("contentChanges", .arr (d.texts.map fun t => .obj [("text", .str t)]))]

/-- The document that is closed. -/
structure DidClose where
  uri : String
deriving DecidableEq, Repr

def DidClose.method : String := "textDocument/didClose"

def DidClose.decode : Decoder DidClose :=
  Fields.record "DidCloseTextDocumentParams"
    (Fields.required "textDocument" (Fields.record "TextDocumentIdentifier"
      (DidClose.mk <$> Fields.required "uri" Json.Decode.string)))

def DidClose.encode (d : DidClose) : Json :=
  .obj [("textDocument", .obj [("uri", .str d.uri)])]

/-! ## Diagnostics and log lines -/

/-- All diagnostics of a document at one of its versions. -/
structure Publish where
  uri : String
  version : Option Int
  diagnostics : List Wire.Diagnostic

def Publish.method : String := "textDocument/publishDiagnostics"

def Publish.decode : Decoder Publish :=
  Fields.record "PublishDiagnosticsParams"
    (Publish.mk <$> Fields.required "uri" Json.Decode.string <*>
      Fields.defaulted "version" (Json.Decode.option Json.Decode.i32) none <*>
      Fields.required "diagnostics" (Json.Decode.list Wire.Diagnostic.decode))

def Publish.encode (p : Publish) : Json :=
  .objOf [some ("uri", .str p.uri), p.version.map fun v => ("version", .int v),
    some ("diagnostics", .arr (p.diagnostics.map Wire.Diagnostic.encode))]

/-- How important a log line is. -/
inductive LogLevel where
  | error
  | warning
  | info
  | log
deriving DecidableEq, Repr

namespace LogLevel

def all : List LogLevel := [error, warning, info, log]

def number : LogLevel → Nat
  | error => 1
  | warning => 2
  | info => 3
  | log => 4

/-- The name of the level at which such lines are forwarded. -/
def name : LogLevel → String
  | error => "ERROR"
  | warning => "WARN"
  | info => "INFO"
  | log => "DEBUG"

def decode : Decoder LogLevel := fun j =>
  match Json.Decode.u8 j with
  | .error e => .error e
  | .ok n =>
    match all.find? fun l => l.number = n with
    | some l => .ok l
    | none => .error (.notOneOf n (all.map number))

end LogLevel

/-- A line that the backend wants to see in the log. -/
structure LogLine where
  level : LogLevel
  message : String
deriving DecidableEq, Repr

def LogLine.decode : Decoder LogLine :=
  Fields.record "LogMessageParams"
    (LogLine.mk <$> Fields.required "type" LogLevel.decode <*>
      Fields.required "message" Json.Decode.string)

def LogLine.encode (l : LogLine) : Json :=
  .obj [("type", .nat l.level.number), ("message", .str l.message)]

end DiagnosticBroker.Wire
