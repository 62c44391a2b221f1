import DiagnosticBroker.Text.Infix
import DiagnosticBroker.Text.LowerCase
import DiagnosticBroker.Json.Decode

/-!
# What can go wrong

`Fault` holds the faults of backends and documents, `AccessFault` those of the allow list,
`SettingsFault` those of the configuration, and `BrokerFault` any of the first two. Each has one
wording, and a fault of a backend is classified: whether it is worth another start
(`Fault.isRecoverable`), and whether it means that the process is gone (`Fault.needsRestart`).
-/

namespace DiagnosticBroker

/-- Why the operating system or a byte stream refused. -/
inductive IoFault where
  | notFound
  | isDirectory
  | notADirectory
  | loop
  | permissionDenied
  | nameTooLong
  | nulInPath
  | brokenPipe
  /-- The stream ended too early. -/
  | unexpectedEnd (text : String)
  /-- The stream holds something unreadable. -/
  | invalidData (text : String)
  /-- A message holds text that is not JSON. -/
  | notJson
  /-- A message holds JSON of another shape. -/
  | misshapen (error : Json.DecodeError)
deriving DecidableEq, Repr

/-- The wording of a fault of the operating system or a byte stream. -/
def IoFault.message : IoFault → String
  | .notFound => "No such file or directory (os error 2)"
  | .isDirectory => "Is a directory (os error 21)"
  | .notADirectory => "Not a directory (os error 20)"
  | .loop => "Too many levels of symbolic links (os error 40)"
  | .permissionDenied => "Permission denied (os error 13)"
  | .nameTooLong => "File name too long (os error 36)"
  | .nulInPath => "file name contained an unexpected NUL byte"
  | .brokenPipe => "broken pipe"
  | .unexpectedEnd text => text
  | .invalidData text => text
  | .notJson => "not JSON"
  | .misshapen e => e.message

/-- Whether the fault is a stream that holds something unreadable, as opposed to one that ended. -/
def IoFault.isInvalidData : IoFault → Bool
  | .invalidData _ => true
  | .notJson => true
  | .misshapen _ => true
  | _ => false

/-- A fault of a backend, of the talk with it, or of the document to be checked. -/
inductive Fault where
  | unsupportedExtension (extension : String)
  /-- The backend could not be launched. -/
  | startFailed (text : String)
  /-- Every allowed start failed. -/
  | unresponsive (command : String) (attempts : Nat)
  | notConnected
  /-- The backend went away. -/
  | terminated (command : String)
  | timedOut (text : String)
  | cancelled
  /-- The backend answered with an error. -/
  | refused (code : Int) (text : String)
  | malformed (text : String)
  | invalidSeverity (value : Int)
  | protocol (text : String)
  | fileTooLarge (path : String) (sizeMb limitMb : Nat)
  | io (fault : IoFault)
deriving DecidableEq, Repr

namespace Fault

/-- The code with which a request is answered that was given up. -/
def cancelledCode : Int := -32800

/-- The wording of a fault. -/
def message : Fault → String
  | unsupportedExtension e => s!"Unsupported file type: {e}"
  | startFailed t => s!"Failed to start backend: {t}"
  | unresponsive c n => s!"Backend '{c}' is unresponsive after {n} start attempt(s)"
  | notConnected => "Backend not connected"
  | terminated c => s!"Backend '{c}' terminated unexpectedly"
  | timedOut t => t
  | cancelled => "Request cancelled"
  | refused code t => s!"Backend error [{code}]: {t}"
  | malformed t => s!"Malformed backend message: {t}"
  | invalidSeverity n => s!"Backend reported invalid diagnostic severity {n} (expected 1-4)"
  | protocol t => s!"Protocol error: {t}"
  | fileTooLarge path size limit => s!"File too large ({size}MB > {limit}MB limit): {path}"
  | io f => f.message

/-- The number by which a fault is reported. -/
def code : Fault → Int
  | refused code _ => code
  | terminated _ => -32099
  | unresponsive _ _ => -32098
  | timedOut _ => -32001
  | notConnected => -32003
  | cancelled => cancelledCode
  | _ => -32000

/-- Whether the request was given up, by either side. -/
def isCancelled : Fault → Bool
  | cancelled => true
  | refused code _ => code = cancelledCode
  | _ => false

/-- Whether another attempt with a freshly started backend may help. -/
def isRecoverable : Fault → Bool
  | terminated _ | notConnected | timedOut _ | malformed _ | cancelled => true
  | f => f.isCancelled

/-- Whether the backend says that it is shutting down. -/
def isShutdown : Fault → Bool
  | refused _ t =>
    let t := Text.lowercase t
    Text.contains t "shutdown" || Text.contains t "server stopped"
  | _ => false

/-- Whether the backend process is gone or of no more use. -/
def needsRestart : Fault → Bool
  | terminated _ | notConnected | malformed _ => true
  | f => f.isShutdown

/-- The fault for an error answer, worded for people where the code has a known meaning. -/
def ofAnswer (code : Int) (text : String) : Fault :=
  if code = -32601 then refused code s!"Method not supported by backend: {text}"
  else if code = -32002 then refused code "Backend still initializing. Try again in a moment."
  else refused code text

end Fault

/-- Why a path may not be read. -/
inductive AccessFault where
  | notAllowed (path : String)
  | notFound (path : String)
  | noAllowedDirectories
deriving DecidableEq, Repr

def AccessFault.message : AccessFault → String
  | .notAllowed p => s!"Path not in allowed directories: {p}"
  | .notFound p => s!"File does not exist: {p}"
  | .noAllowedDirectories => "No allowed directories configured"

/-- Why the configuration cannot be used. -/
inductive SettingsFault where
  /-- A file is not in the format, or holds a setting of the wrong type. -/
  | parse (text : String)
  | notFound (text : String)
  | invalidValue (key text : String)
  | io (fault : IoFault)
deriving DecidableEq, Repr

def SettingsFault.message : SettingsFault → String
  | .parse t => s!"Config parse error: {t}"
  | .notFound t => t
  | .invalidValue key t => s!"Invalid value for '{key}': {t}"
  | .io f => f.message

/-- Why a file could not be checked. -/
inductive BrokerFault where
  | access (fault : AccessFault)
  | backend (fault : Fault)
deriving DecidableEq, Repr

def BrokerFault.message : BrokerFault → String
  | .access f => f.message
  | .backend f => f.message

end DiagnosticBroker
