import DiagnosticBroker.Simulation.Serving
import DiagnosticBroker.Startup

/-!
# Running the program

One run of the program, from its arguments to its exit code, as a function of the files, the
environment and the whole input. Backends are processes.
-/

namespace DiagnosticBroker.Simulation

/-- What a run of the program starts from. -/
structure Invocation where
  args : List String
  env : Settings.Environment
  /-- The directory that it runs in. -/
  directory : String
  files : FileTree
  input : List UInt8

/-- What a run of the program comes to. -/
structure Invocation.Result where
  exitCode : Nat
  /-- The lines of the output. -/
  output : List String := []
  /-- What it complains about. -/
  complaint : Option String := none

namespace Invocation

/-- The line that tells the version. -/
def versionLine : String := "langcheck 0.1.0"

/-- The answers that a server gives to all lines of the input. -/
def serve (i : Invocation) (s : Startup) (server : Tool.Server) : Tool.Server :=
  let world : World :=
    { pool := s.pool i.directory, files := i.files, rules := s.rules, launcher := .processes }
  (((Host.launch .pool server { world := world }).feed i.input).finish).server

/-- The exit code and complaint after the input has ended. -/
def ofServer (s : Tool.Server) : Result :=
  let output := s.output.map fun (_, r) => r.encode.text
  match s.ending with
  | some .unreadable =>
    { exitCode := 1, output := output, complaint := some "stream did not contain valid UTF-8" }
  | _ => { exitCode := 0, output := output }

/-- What a program comes to that dies because it cannot set up a server. -/
def died : Result :=
  { exitCode := 101,
    complaint := some ("a semaphore may not have more than MAX_PERMITS permits " ++
      s!"({Tool.Server.maxPermits})") }

/-- What a run comes to whose settings are loaded. -/
def ofStartup (i : Invocation) (s : Startup) : Result :=
  match Tool.Server.ofPolicy? s.policy with
  | some server => ofServer (i.serve s server)
  | none => died

/-- A run of the program. -/
def run (i : Invocation) : Result :=
  match CommandLine.parse i.args with
  | .error r =>
    { exitCode := r.exitCode, output := if r = .versionAsked then [versionLine] else [] }
  | .ok o =>
    match Startup.ofOptions i.files i.directory i.env o with
    | .error f => { exitCode := 1, complaint := some s!"Failed to initialize: {f.message}" }
    | .ok s => i.ofStartup s

end Invocation

end DiagnosticBroker.Simulation
