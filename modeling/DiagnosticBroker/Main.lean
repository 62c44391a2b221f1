import DiagnosticBroker.FileTree.Edit
import DiagnosticBroker.Simulation.Invocation

/-!
# The command line program

Reads the whole input, looks up the files that it and the arguments name, and prints the answers.
Everything else is decided by `Simulation.Invocation.run`; backends are the programs that are known
there.
-/

namespace DiagnosticBroker.Program

open Simulation (Invocation)

/-- The variables of the environment that matter. -/
def variableNames : List String :=
  ["HOME", "XDG_CONFIG_HOME", "LANGCHECK_LSP_TIMEOUT", "LANGCHECK_DIAGNOSTICS_TIMEOUT_MS",
    "LANGCHECK_SILENCE_IS_CLEAN"]

def environment : IO Settings.Environment :=
  variableNames.filterMapM fun name => do
    return (← IO.getEnv name).map fun value => (name, value)

/-- All bytes of the standard input. -/
partial def readInput (input : IO.FS.Stream) (soFar : ByteArray) : IO ByteArray := do
  let bytes ← input.read 65536
  if bytes.isEmpty then return soFar else readInput input (soFar ++ bytes)

/-- Adds what stands at the path that leads from a directory by one name, and tells where it is. -/
def surveyName (t : FileTree) (directory name : String) : IO (FileTree × String) := do
  let path := Path.join directory name
  let real ← IO.FS.realPath path
  let t := if real.toString = path then t else t.edit "/" (.link path real.toString)
  if ← real.isDir then return (t.edit "/" (.directory real.toString), real.toString)
  else return (t.edit "/" (.file real.toString (← IO.FS.readBinFile real)), real.toString)

/-- Adds everything along the pieces of a path, up to the first one that is not there. -/
def survey (t : FileTree) (directory : String) : List String → IO FileTree
  | [] => return t
  | piece :: rest => do
    if FileTree.isBlank piece then survey t directory rest
    else if piece = ".." then
      survey t (Path.ofNames ((FileTree.pieces directory).filter (· ≠ "")).dropLast) rest
    else
      try
        let (t, here) ← surveyName t directory piece
        survey t here rest
      catch _ => return t

/-- The paths that a run of the program may look at. -/
def paths (env : Settings.Environment) (args : List String) (input : ByteArray) : List String :=
  let lines := (String.fromUTF8? input).getD "" |>.splitOn "\n"
  let files := lines.filterMap fun l =>
    match Tool.Demand.ofLine l with
    | .check _ file => some file
    | _ => none
  match CommandLine.parse args with
  | .ok o => Settings.globalPath env :: o.config.toList ++ o.allowedDirs ++ files
  | .error _ => []

end DiagnosticBroker.Program

open DiagnosticBroker in
def main (args : List String) : IO UInt32 := do
  let env ← Program.environment
  let directory := (← IO.FS.realPath (← IO.currentDir)).toString
  let input ← Program.readInput (← IO.getStdin) ByteArray.empty
  let files ← (Program.paths env args input).foldlM (fun t path =>
    Program.survey t "/" (FileTree.pieces (Path.join directory path))) (FileTree.bare directory)
  let result := (Simulation.Invocation.mk args env directory files input.toList).run
  for line in result.output do
    IO.println line
  match result.complaint with
  | some text => IO.eprintln s!"langcheck: {text}"
  | none => pure ()
  return result.exitCode.toUInt32
