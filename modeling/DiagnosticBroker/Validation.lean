import DiagnosticBroker.Sandbox
import DiagnosticBroker.Session

/-!
# Checking files

A file is checked in one pass: it must lie below an allowed directory, its extension must have a
backend, and then the diagnostics of a round at that backend are reported.
-/

namespace DiagnosticBroker

/-- What is needed to decide which files are checked by which backend. -/
structure Rules where
  sandbox : Sandbox
  registry : Registry
deriving DecidableEq, Repr

/-- The rules for some directories and rows of settings. The directories are checked first. -/
def Rules.ofSettings (files : FileTree) (directory : String) (allowed : List String)
    (rows : List BackendEntry) : Except BrokerFault Rules :=
  match Sandbox.ofDirectories files directory allowed with
  | .error f => .error (.access f)
  | .ok sandbox =>
    match Registry.ofEntries rows with
    | .error f => .error (.backend f)
    | .ok registry => .ok ⟨sandbox, registry⟩

/-- How far a check is. -/
inductive Validation.Phase where
  | begin
  /-- The document at a path is being checked by a backend. -/
  | working (path languageId : String) (work : Execute Round)

/-- The check of a file. -/
structure Validation where
  file : String
  phase : Validation.Phase := .begin

namespace Validation

/-- The outcome of a check. -/
abbrev Outcome := Except BrokerFault (List Diagnostic)

/-- Which file is checked by which backend (`authorize` and `lookup_path`). -/
def select (r : Rules) (files : FileTree) (directory file : String) :
    Except BrokerFault (String × Backend) :=
  match r.sandbox.authorize files directory file with
  | .error f => .error (.access f)
  | .ok place =>
    let path := Path.ofNames place
    match r.registry.findPath path with
    | .error f => .error (.backend f)
    | .ok b => .ok (path, b)

/-- The outcome of a check, given the outcome of its work (the end of `try_validate`). -/
def outcomeOf : Wait.Outcome → Outcome
  | .error f => .error (.backend f)
  | .ok ds => (Diagnostic.ofWireAll ds).mapError .backend

/-- One step of a check (`try_validate`). -/
def step (r : Rules) (files : FileTree) (w : Surroundings) (p : Pool) (v : Validation) :
    Step Pool Validation Outcome :=
  match v.phase with
  | .begin =>
    match select r files p.directory v.file with
    | .error f => .done p (.error f)
    | .ok (path, b) => .next p { v with phase := .working path b.languageId (.start b) }
  | .working path languageId x =>
    (x.step (Round.work files path languageId p.budget.maxFileSizeBytes) w p).within
      (fun x => { v with phase := .working path languageId x })
      fun p o => .done p (outcomeOf o)

/-- What is left when a check is given up. -/
def cancel (p : Pool) (v : Validation) : Pool :=
  match v.phase with
  | .working _ _ ⟨_, _, .running _ r⟩ => r.cancel p
  | _ => p

/-- The report of a check (`validate`). -/
def report (file : String) : Outcome → Report
  | .ok ds => .success file ds
  | .error f => .failure file f.message

end Validation

end DiagnosticBroker
