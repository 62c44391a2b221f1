import DiagnosticBroker.Json.Decode

/-!
# Settings

What a configuration file sets: the talk with backends, the tool server, and further rows of the
table of backends. Every setting has a default, so a file may leave out any of them.
-/

namespace DiagnosticBroker

open Json (Decoder Fields)

/-- Settings of the talk with backends. -/
structure BackendSettings where
  /-- Seconds allowed for a request; some methods get more or less. -/
  timeoutSecs : Nat := 30
  /-- Milliseconds to wait for diagnostics after a document was announced. -/
  diagnosticsTimeoutMs : Nat := 5000
  /-- Milliseconds without a further publish after which the last one is final. -/
  settleMs : Nat := 150
  /-- Whether a backend that publishes nothing means that there are no diagnostics. -/
  silenceIsClean : Bool := true
  /-- Starts allowed after the first one failed. -/
  maxRestarts : Nat := 2
  /-- Seconds for which publishes that nobody waits for are kept. -/
  retentionSecs : Nat := 30
  /-- Megabytes that a document may have; zero stands for no limit. -/
  maxFileSizeMb : Nat := 10
  autoRestart : Bool := true
deriving DecidableEq, Repr

/-- Settings of the tool server. -/
structure ServerSettings where
  maxConcurrent : Nat := 16
  /-- Minutes after which an unused backend is stopped; zero stands for never. -/
  idleTimeoutMins : Nat := 30
deriving DecidableEq, Repr

/-- A row of the table of backends. -/
structure BackendEntry where
  /-- The extension under which the row is found. -/
  extension : String
  command : List String
  /-- The extensions that the backend takes; if empty, only the one of the row. -/
  extensions : List String
  languageId : String
deriving DecidableEq, Repr

/-- All settings. -/
structure Settings where
  lsp : BackendSettings := {}
  server : ServerSettings := {}
  backends : List BackendEntry := []
deriving DecidableEq, Repr

instance : Inhabited Settings := ⟨{}⟩

namespace BackendSettings

/-- The most bytes that a document may have. -/
def maxFileSizeBytes (s : BackendSettings) : Nat :=
  if s.maxFileSizeMb = 0 then Word.maxU64 else s.maxFileSizeMb * 1024 * 1024

def decode : Decoder BackendSettings :=
  let d : BackendSettings := {}
  Fields.record "LspConfig"
    (BackendSettings.mk <$> Fields.defaulted "timeout_secs" Json.Decode.u64 d.timeoutSecs <*>
      Fields.defaulted "diagnostics_timeout_ms" Json.Decode.u64 d.diagnosticsTimeoutMs <*>
      Fields.defaulted "settle_ms" Json.Decode.u64 d.settleMs <*>
      Fields.defaulted "silence_is_clean" Json.Decode.bool d.silenceIsClean <*>
      Fields.defaulted "max_restarts" Json.Decode.u32 d.maxRestarts <*>
      Fields.defaulted "retention_secs" Json.Decode.u64 d.retentionSecs <*>
      Fields.defaulted "max_file_size_mb" Json.Decode.u32 d.maxFileSizeMb <*>
      Fields.defaulted "auto_restart" Json.Decode.bool d.autoRestart)

def encode (s : BackendSettings) : Json :=
  .obj [("timeout_secs", .nat s.timeoutSecs),
    ("diagnostics_timeout_ms", .nat s.diagnosticsTimeoutMs), ("settle_ms", .nat s.settleMs),
    ("silence_is_clean", .bool s.silenceIsClean), ("max_restarts", .nat s.maxRestarts),
    ("retention_secs", .nat s.retentionSecs), ("max_file_size_mb", .nat s.maxFileSizeMb),
    ("auto_restart", .bool s.autoRestart)]

end BackendSettings

namespace ServerSettings

def decode : Decoder ServerSettings :=
  let d : ServerSettings := {}
  Fields.record "ServerSettings"
    (ServerSettings.mk <$> Fields.defaulted "max_concurrent" Json.Decode.usize d.maxConcurrent <*>
      Fields.defaulted "idle_timeout_mins" Json.Decode.u64 d.idleTimeoutMins)

def encode (s : ServerSettings) : Json :=
  .obj [("max_concurrent", .nat s.maxConcurrent), ("idle_timeout_mins", .nat s.idleTimeoutMins)]

end ServerSettings

namespace BackendEntry

def decode : Decoder BackendEntry :=
  Fields.record "BackendEntry"
    (BackendEntry.mk <$> Fields.required "extension" Json.Decode.string <*>
      Fields.required "command" (Json.Decode.list Json.Decode.string) <*>
      Fields.defaulted "extensions" (Json.Decode.list Json.Decode.string) [] <*>
      Fields.required "language_id" Json.Decode.string)

def encode (e : BackendEntry) : Json :=
  .obj [("extension", .str e.extension), ("command", .arr (e.command.map .str)),
    ("extensions", .arr (e.extensions.map .str)), ("language_id", .str e.languageId)]

end BackendEntry

namespace Settings

def decode : Decoder Settings :=
  Fields.record "ValidatorConfig"
    (Settings.mk <$> Fields.defaulted "lsp" BackendSettings.decode {} <*>
      Fields.defaulted "server" ServerSettings.decode {} <*>
      Fields.defaulted "backends" (Json.Decode.list BackendEntry.decode) [])

def encode (s : Settings) : Json :=
  .obj [("lsp", s.lsp.encode), ("server", s.server.encode),
    ("backends", .arr (s.backends.map BackendEntry.encode))]

end Settings

end DiagnosticBroker
