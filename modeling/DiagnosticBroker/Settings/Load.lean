import DiagnosticBroker.FileTree.Basic
import DiagnosticBroker.Settings.Basic
import DiagnosticBroker.Text.LowerCase
import DiagnosticBroker.Text.Numeral
import DiagnosticBroker.Text.Utf8
import DiagnosticBroker.Toml.Reader

/-!
# Loading settings

Settings come from a global file, which may be missing, from a file named explicitly, and from the
environment. A table of the explicit file replaces the global one as a whole, its backends follow
the global ones, and a variable of the environment has the last word on its setting; a variable
with an unreadable value is passed over.
-/

namespace DiagnosticBroker.Settings

/-- The variables of the environment. -/
abbrev Environment := List (String × String)

/-! ## Where files are -/

/-- The path of the global file (`global_config_path`). -/
def globalPath (env : Environment) : String :=
  let base :=
    match env.lookup "XDG_CONFIG_HOME", env.lookup "HOME" with
    | some d, _ => d
    | none, some home => Path.join home ".config"
    | none, none => "."
  if base.isEmpty then "langcheck/config.toml" else Path.join base "langcheck/config.toml"

/-! ## Reading a file -/

/-- Reads the text of a settings file. -/
def ofText (path : String) (text : List Char) : Except SettingsFault Settings :=
  match Toml.read? text with
  | none => .error (.parse s!"{path}: not a settings document")
  | some j => (decode j).mapError fun e => .parse s!"{path}: {e.message}"

/-- Reads a settings file (`load_from_path`). -/
def ofFile (t : FileTree) (cwd path : String) : Except SettingsFault Settings :=
  match t.content cwd path with
  | .error e => .error (.io e)
  | .ok bytes =>
    match Utf8.decodeArray bytes with
    | .error _ => .error (.io (.invalidData "stream did not contain valid UTF-8"))
    | .ok text => ofText path text.toList

/-! ## Putting sources together -/

/-- Lays the settings of one file over those of another one (`merge_config`). -/
def overlay (base top : Settings) : Settings :=
  { lsp := top.lsp, server := top.server, backends := base.backends ++ top.backends }

/-- The value of a yes-or-no variable. -/
def readSwitch? (value : String) : Option Bool :=
  let v := Text.lowercaseAscii value
  if v = "1" || v = "true" || v = "yes" then some true
  else if v = "0" || v = "false" || v = "no" then some false
  else none

/-- Lets the environment override settings (`apply_env_overrides`). -/
def applyEnvironment (env : Environment) (s : Settings) : Settings :=
  let seconds := (env.lookup "LANGCHECK_LSP_TIMEOUT").bind Numeral.readU64?
  let ms := (env.lookup "LANGCHECK_DIAGNOSTICS_TIMEOUT_MS").bind Numeral.readU64?
  let silence := (env.lookup "LANGCHECK_SILENCE_IS_CLEAN").bind readSwitch?
  { s with lsp := { s.lsp with
      timeoutSecs := seconds.getD s.lsp.timeoutSecs
      diagnosticsTimeoutMs := ms.getD s.lsp.diagnosticsTimeoutMs
      silenceIsClean := silence.getD s.lsp.silenceIsClean } }

/-- The settings of the global file, or the defaults if it does not exist. -/
def loadGlobal (t : FileTree) (cwd path : String) : Except SettingsFault Settings :=
  if t.pathExists cwd path then ofFile t cwd path else .ok {}

/-- Lays the explicit file, if one is named, over settings. -/
def loadExplicit (t : FileTree) (cwd : String) (path? : Option String) (base : Settings) :
    Except SettingsFault Settings :=
  match path? with
  | none => .ok base
  | some path =>
    if t.pathExists cwd path then (ofFile t cwd path).map (overlay base)
    else .error (.notFound s!"Config file does not exist: {path}")

/-- Loads all settings (`load`). -/
def load (t : FileTree) (cwd : String) (env : Environment) (globalFile : String)
    (explicit : Option String) : Except SettingsFault Settings := do
  let base ← loadGlobal t cwd globalFile
  let all ← loadExplicit t cwd explicit base
  return applyEnvironment env all

end DiagnosticBroker.Settings
