import DiagnosticBroker.Fault

/-!
# The handshake with a backend

What the client says of itself in its first request, and what the backend answers.
-/

namespace DiagnosticBroker.Wire

open Json (Decoder Fields)

/-- A program and its version. -/
structure ProgramInfo where
  name : String
  version : Option String
deriving DecidableEq, Repr

/-- A program and its version; `type` names the record in errors. -/
def ProgramInfo.decodeAs (type : String) : Decoder ProgramInfo :=
  Fields.record type
    (ProgramInfo.mk <$> Fields.required "name" Json.Decode.string <*>
      Fields.optional "version" Json.Decode.string)

def ProgramInfo.encode (p : ProgramInfo) : Json :=
  .objOf [some ("name", .str p.name), p.version.map fun v => ("version", .str v)]

/-- A directory that the client works in. -/
structure Folder where
  uri : String
  name : String
deriving DecidableEq, Repr

def Folder.decode : Decoder Folder :=
  Fields.record "WorkspaceFolder"
    (Folder.mk <$> Fields.required "uri" Json.Decode.string <*>
      Fields.required "name" Json.Decode.string)

def Folder.encode (f : Folder) : Json := .obj [("uri", .str f.uri), ("name", .str f.name)]

/-- What the client can do with documents. -/
structure DocumentAbilities where
  synchronization : Option Json
  publishDiagnostics : Option Json

def DocumentAbilities.decode : Decoder DocumentAbilities :=
  Fields.record "TextDocumentClientCapabilities"
    (DocumentAbilities.mk <$> Fields.optional "synchronization" Json.Decode.value <*>
      Fields.optional "publishDiagnostics" Json.Decode.value)

def DocumentAbilities.encode (a : DocumentAbilities) : Json :=
  .objOf [a.synchronization.map fun j => ("synchronization", j),
    a.publishDiagnostics.map fun j => ("publishDiagnostics", j)]

/-- What the client can tell of its folders and settings. -/
structure WorkspaceAbilities where
  workspaceFolders : Option Bool
  configuration : Option Bool
deriving DecidableEq, Repr

def WorkspaceAbilities.decode : Decoder WorkspaceAbilities :=
  Fields.record "WorkspaceClientCapabilities"
    (WorkspaceAbilities.mk <$> Fields.optional "workspaceFolders" Json.Decode.bool <*>
      Fields.optional "configuration" Json.Decode.bool)

def WorkspaceAbilities.encode (a : WorkspaceAbilities) : Json :=
  .objOf [a.workspaceFolders.map fun b => ("workspaceFolders", .bool b),
    a.configuration.map fun b => ("configuration", .bool b)]

/-- What the client can do. -/
structure Abilities where
  textDocument : Option DocumentAbilities
  workspace : Option WorkspaceAbilities
  window : Option Json

def Abilities.decode : Decoder Abilities :=
  Fields.record "ClientCapabilities"
    (Abilities.mk <$> Fields.optional "textDocument" DocumentAbilities.decode <*>
      Fields.optional "workspace" WorkspaceAbilities.decode <*>
      Fields.optional "window" Json.Decode.value)

def Abilities.encode (a : Abilities) : Json :=
  .objOf [a.textDocument.map fun t => ("textDocument", t.encode),
    a.workspace.map fun w => ("workspace", w.encode), a.window.map fun j => ("window", j)]

/-- The abilities of a client that only announces documents and reads diagnostics. -/
def Abilities.diagnosticsOnly : Abilities where
  textDocument := some {
    synchronization := some (.obj [("didSave", .bool false), ("dynamicRegistration", .bool false),
      ("willSave", .bool false), ("willSaveWaitUntil", .bool false)])
    publishDiagnostics := some (.obj [("codeDescriptionSupport", .bool false),
      ("dataSupport", .bool false), ("relatedInformation", .bool false),
      ("versionSupport", .bool true)]) }
  workspace := some ⟨some true, some true⟩
  window := some (.obj [("workDoneProgress", .bool true)])

/-- The first request of the client. -/
structure Initialize where
  processId : Option Nat
  rootUri : Option String
  capabilities : Abilities
  clientInfo : Option ProgramInfo
  workspaceFolders : Option (List Folder)

def Initialize.decode : Decoder Initialize :=
  Fields.record "InitializeParams"
    (Initialize.mk <$> Fields.optional "processId" Json.Decode.u32 <*>
      Fields.optional "rootUri" Json.Decode.string <*>
      Fields.required "capabilities" Abilities.decode <*>
      Fields.optional "clientInfo" (ProgramInfo.decodeAs "ClientInfo") <*>
      Fields.optional "workspaceFolders" (Json.Decode.list Folder.decode))

def Initialize.encode (i : Initialize) : Json :=
  .objOf [some ("processId", match i.processId with | some n => .nat n | none => .null),
    some ("rootUri", match i.rootUri with | some s => .str s | none => .null),
    some ("capabilities", i.capabilities.encode),
    i.clientInfo.map fun p => ("clientInfo", p.encode),
    i.workspaceFolders.map fun fs => ("workspaceFolders", .arr (fs.map Folder.encode))]

/-- The backend's answer to the first request. -/
structure InitializeResult where
  capabilities : Json
  serverInfo : Option ProgramInfo

def InitializeResult.decode : Decoder InitializeResult :=
  Fields.record "InitializeResult"
    (InitializeResult.mk <$> Fields.defaulted "capabilities" Json.Decode.value .null <*>
      Fields.optional "serverInfo" (ProgramInfo.decodeAs "ServerInfo"))

def InitializeResult.encode (r : InitializeResult) : Json :=
  .objOf [some ("capabilities", r.capabilities), r.serverInfo.map fun p => ("serverInfo", p.encode)]

end DiagnosticBroker.Wire
