import DiagnosticBroker.Proofs.Pool.Attempts
import DiagnosticBroker.Proofs.Validation.Journal
import DiagnosticBroker.Proofs.Validation.Progress
import Mathlib

/-!
# The outcome of a check

A file that lies outside the allowed directories, or has no backend, is reported with the error that
says so, and nothing else happens. The report of every other check is about its file and rests on its
sessions, each of which was closed once; and every check can be brought to its report.

Results:
* `outcome_of_check`: what the report of a check says, and that there is one.
-/

namespace DiagnosticBroker.Inspection

variable {rules : Rules} {file : String} {s : Inspection}

/-- **The outcome of a check.** A refused file is reported at once, without any change of the depot;
a report rests on the sessions of its check; and a check can always be brought to its end. -/
theorem outcome_of_check (h : Reachable rules file s) :
    (∀ exited f, s.check = .running { file := file } →
      rules.sandbox.authorize s.files s.depot.pool.directory file = .error f →
        s.act (.step exited) = some { s with check := .ended (.failure file f.message) }) ∧
    (∀ exited place f, s.check = .running { file := file } →
      rules.sandbox.authorize s.files s.depot.pool.directory file = .ok place →
      rules.registry.findPath (Path.ofNames place) = .error f →
        s.act (.step exited) = some { s with check := .ended (.failure file f.message) }) ∧
    (∀ r, s.check = .ended r → r.Accounted file s.depot.pool.budget s.journal) ∧
    s.Leads IsOver := by
  have hrules := (standing_of_reachable h).rules_eq
  refine ⟨fun exited f hcheck hauthorize => ?_, fun exited place f hcheck hauthorize hfind => ?_,
    fun r => (told_of_reachable h).ended, ends_of_reachable h⟩
  · refine act_of_rejects (f := .access f) exited hcheck ?_
    rw [Validation.select, hrules, hauthorize]
  · refine act_of_rejects (f := .backend f) exited hcheck ?_
    rw [Validation.select, hrules, hauthorize]
    simp only [hfind]

/-! ## A file with a warning -/

/-- Python files below one directory are checked. -/
def sampleRules : Rules := ⟨⟨[["repo"]]⟩, ⟨[(".py", Depot.python)]⟩⟩

def sampleFiles : FileTree :=
  ⟨[(["repo"], .directory), (["repo", "a.py"], .file ByteArray.empty),
    (["repo", "b.txt"], .file ByteArray.empty)]⟩

def sample (file : String) : Inspection := new sampleRules file sampleFiles Depot.sample

def step : Event := .step fun _ => false

/-- What the backend publishes of the file. -/
def warning : Wire.Message :=
  .notification (.new Wire.Publish.method (some (.obj [
    ("uri", .str "file:///repo/a.py"), ("version", .nat 1),
    ("diagnostics", .arr [.obj [
      ("range", .obj [("start", .obj [("line", .nat 2), ("character", .nat 0)]),
        ("end", .obj [("line", .nat 2), ("character", .nat 5)])]),
      ("severity", .nat 2), ("message", .str "unused import")]])])))

/-- The file has been found and its backend is started. -/
def chosen : Inspection :=
  { sample "/repo/a.py" with
    check := .running ⟨"/repo/a.py", .working "/repo/a.py" "python" (.start Depot.python)⟩ }

/-- The file is about to be read. -/
def opening : Inspection :=
  (chosen.follow ([step, step] ++ (Depot.bringing 0).map .other ++ [step])).getD chosen

/-- The file is read, and about to be announced. -/
def announcing : Inspection :=
  { opening with
    check := .running ⟨"/repo/a.py", .working "/repo/a.py" "python" ⟨Depot.python, 0,
      .running 0 (.opening ⟨0, "/repo/a.py", "python", 10485760, some ""⟩)⟩⟩ }

/-- The backend publishes a warning while the check waits. -/
def answering : List Event :=
  [step, step, .other (.beside 0 (.receive warning)), step, .other (.elapse 150 0), step, step]

def reported : Inspection := (announcing.follow answering).getD announcing

theorem reachable_sample (file : String) : Reachable sampleRules file (sample file) :=
  ⟨_, _, _, _, _, _, .refl⟩

theorem reachable_chosen : Reachable sampleRules "/repo/a.py" chosen := by
  have hselect : Validation.select sampleRules sampleFiles "/" "/repo/a.py" =
      .ok ("/repo/a.py", Depot.python) := by cbv
  have ha := act_of_selects (s := sample "/repo/a.py") (fun _ => false) rfl hselect
  exact (reachable_sample _).run (Run.refl.step (P := fun _ _ => True) trivial ha)

/-- A file that can be read is read. -/
theorem act_of_reads {path languageId text : String} {b : Backend} {n i : Nat} {o : Session.Opening}
    (exited : Nat → Bool) (hcheck : s.check = .running
      ⟨file, .working path languageId ⟨b, n, .running i (.opening o)⟩⟩) (ht : o.text = none)
    (hr : DocumentText.read s.files s.depot.pool.directory o.path o.limit = .ok text) :
    s.act (.step exited) = some { s with
      check := .running ⟨file, .working path languageId
        ⟨b, n, .running i (.opening { o with text := some text })⟩⟩ } := by
  have hstep : Validation.reportStep s.rules s.files (s.depot.surroundings exited) s.depot.pool
      ⟨file, .working path languageId ⟨b, n, .running i (.opening o)⟩⟩ =
      .later s.depot.pool ⟨file, .working path languageId
        ⟨b, n, .running i (.opening { o with text := some text })⟩⟩ := by
    simp only [Validation.reportStep, Validation.step, Execute.step, Round.work, Round.step,
      Session.Opening.step, ht, hr]
    rfl
  rw [act_of_reportStep hcheck (.of_later hstep), hcheck]
  simp only [Task.notes, Task.round?, Validation.round?, Execute.run?, Round.notes, List.append_nil]

theorem reachable_announcing : Reachable sampleRules "/repo/a.py" announcing := by
  have hopening : chosen.follow ([step, step] ++ (Depot.bringing 0).map .other ++ [step]) =
      some opening := by rfl
  have hcheck : opening.check = .running ⟨"/repo/a.py", .working "/repo/a.py" "python"
      ⟨Depot.python, 0, .running 0 (.opening ⟨0, "/repo/a.py", "python", 10485760, none⟩)⟩⟩ := by
    rfl
  have hread : DocumentText.read sampleFiles "/" "/repo/a.py" 10485760 = .ok "" := by cbv
  have ha := act_of_reads (fun _ => false) hcheck rfl hread
  exact (reachable_chosen.run (Run.of_follow hopening)).run
    (Run.refl.step (P := fun _ _ => True) trivial ha)

theorem follow_answering : announcing.follow answering = some reported := by
  have hsome : (announcing.follow answering).isSome = true := by decide +kernel
  obtain ⟨t, ht⟩ := Option.isSome_iff_exists.mp hsome
  rw [reported, ht, Option.getD_some]

theorem reachable_reported : Reachable sampleRules "/repo/a.py" reported :=
  reachable_announcing.run (Run.of_follow follow_answering)

theorem check_reported : reported.check =
    .ended ⟨"/repo/a.py", [⟨"unused import", .warning, 2, 0, none⟩], none⟩ := by
  have hresult : reported.check.result? =
      some ⟨"/repo/a.py", [⟨"unused import", .warning, 2, 0, none⟩], none⟩ := by decide +kernel
  unfold Task.result? at hresult
  split at hresult <;> cases hresult
  assumption

/-- A file elsewhere and a file without a backend are refused, and the third is reported with the
warning that its session has heard. -/
theorem outcome_of_check_warning :
    (sample "/etc/passwd").act step = some { sample "/etc/passwd" with
      check := .ended (.failure "/etc/passwd" (AccessFault.notAllowed "/etc/passwd").message) } ∧
    (sample "/repo/b.txt").act step = some { sample "/repo/b.txt" with
      check := .ended (.failure "/repo/b.txt" (Fault.unsupportedExtension ".txt").message) } ∧
    ∃ visits : List Visit, ∃ v, reported.journal = visits.flatMap Visit.notes ∧ visits.getLast? = some v ∧
      v.Supports reported.depot.pool.budget [⟨"unused import", .warning, 2, 0, none⟩] := by
  have houtside : sampleRules.sandbox.authorize sampleFiles "/" "/etc/passwd" =
      .error (.notAllowed "/etc/passwd") := by cbv
  have hinside : sampleRules.sandbox.authorize sampleFiles "/" "/repo/b.txt" =
      .ok ["repo", "b.txt"] := by cbv
  have hunknown : sampleRules.registry.findPath (Path.ofNames ["repo", "b.txt"]) =
      .error (.unsupportedExtension ".txt") := by cbv
  obtain ⟨hrefuses, -⟩ := outcome_of_check (reachable_sample "/etc/passwd")
  obtain ⟨-, hunsupported, -⟩ := outcome_of_check (reachable_sample "/repo/b.txt")
  obtain ⟨-, -, haccounted, -⟩ := outcome_of_check reachable_reported
  obtain ⟨visits, hjournal, hlast⟩ := (haccounted _ check_reported).sessions
  obtain ⟨v, hv, hsupports⟩ := hlast rfl
  exact ⟨hrefuses _ _ rfl houtside, hunsupported _ _ _ rfl hinside hunknown, visits, v, hjournal, hv,
    hsupports⟩

end DiagnosticBroker.Inspection
