import DiagnosticBroker.CommandLine
import DiagnosticBroker.Settings.Load
import DiagnosticBroker.Validation

/-!
# Starting up

What the command line, the settings files and the environment come to: which files are checked by
which backends, with which times, and how they are served.
-/

namespace DiagnosticBroker

/-- Why the program does not start to serve. -/
inductive StartupFault where
  | settings (fault : SettingsFault)
  | rules (fault : BrokerFault)
deriving DecidableEq, Repr

def StartupFault.message : StartupFault → String
  | .settings f => f.message
  | .rules f => f.message

/-- Everything that is decided before the first file is checked. -/
structure Startup where
  settings : Settings
  rules : Rules
deriving DecidableEq, Repr

namespace Startup

def budget (s : Startup) : Budget := .ofSettings s.settings

def policy (s : Startup) : ServerPolicy := .ofSettings s.settings.server s.budget

/-- The directories that backends are told to work in: those that may be read. -/
def roots (s : Startup) : List String := s.rules.sandbox.allowed.map Path.ofNames

/-- A pool without backends. -/
def pool (s : Startup) (directory : String) : Pool :=
  { budget := s.budget, roots := s.roots, directory := directory }

/-- What settings and allowed directories come to. -/
def ofSettings (files : FileTree) (directory : String) (allowed : List String) (s : Settings) :
    Except BrokerFault Startup :=
  (Rules.ofSettings files directory allowed s.backends).map fun rules => ⟨s, rules⟩

/-- What a command line comes to; its options override the settings. -/
def ofOptions (files : FileTree) (directory : String) (env : Settings.Environment)
    (o : CommandLine.Options) : Except StartupFault Startup :=
  match Settings.load files directory env (Settings.globalPath env) o.config with
  | .error f => .error (.settings f)
  | .ok s => (ofSettings files directory o.allowedDirs (o.apply s)).mapError .rules

end Startup

end DiagnosticBroker
