import DiagnosticBroker.Proofs.Pool.Depot
import DiagnosticBroker.Validation

/-!
# Everything that happens while a file is checked

An `Inspection` is the check of one file together with everything that happens meanwhile: whatever
other callers, starts and backends do at the same pool, and changes of the files. One event is a step
of the check or one of these, and `Inspection.act` says what it does.

What becomes of the sessions of the check is written down in a journal, so that what is proved can
speak of the past.
-/

namespace DiagnosticBroker

/-! ## Notes -/

/-- What is noted of a session, which is known by its instance and its waiter. -/
inductive Note where
  | opened (index : Nat) (waiter : Waiter)
  /-- The wait has returned with an outcome when its channel held this snapshot. -/
  | heard (index : Nat) (waiter : Waiter) (snapshot : Snapshot) (outcome : Wait.Outcome)
  | closed (index : Nat) (waiter : Waiter)

/-- The snapshot that a waiter looks at. -/
def Pool.snapshotOf (p : Pool) (i : Nat) (w : Waiter) : Snapshot :=
  match p.instance? i with
  | some x => (x.collector.channelOf w).snapshot
  | none => .pending

/-- What is noted of a step of a round, given how far it is then. -/
def Round.notes (p : Pool) : Round → Option Round → List Note
  | .opening _, some (.waiting s _) => [.opened s.index s.waiter]
  | .waiting s _, some (.closing _ o) => [.heard s.index s.waiter (p.snapshotOf s.index s.waiter) o]
  | .closing s _, _ => [.closed s.index s.waiter]
  | _, _ => []

/-- The run of work that is under way. -/
def Execute.run? {π : Type} (x : Execute π) : Option π :=
  match x.phase with
  | .running _ r => some r
  | _ => none

namespace Validation

/-- The round that is under way. -/
def round? (v : Validation) : Option Round :=
  match v.phase with
  | .working _ _ x => x.run?
  | .begin => none

/-- One step of a check up to its report. -/
def reportStep (r : Rules) (files : FileTree) (w : Surroundings) (p : Pool) (v : Validation) :
    Step Pool Validation Report :=
  (v.step r files w p).within id fun p o => .done p (report v.file o)

end Validation

/-- The round that is under way in a check. -/
def Task.round? {α : Type} : Task Validation α → Option Round
  | .running v => v.round?
  | _ => none

/-- What is noted of a step that leads from one check to another. -/
def Task.notes {α : Type} (p : Pool) (t t' : Task Validation α) : List Note :=
  match t.round? with
  | some r => r.notes p t'.round?
  | none => []

/-! ## Inspections -/

/-- The check of a file, and all that happens meanwhile. -/
structure Inspection where
  rules : Rules
  depot : Depot
  files : FileTree
  check : Task Validation Report
  journal : List Note := []

/-- One thing that can happen. -/
inductive Inspection.Event where
  /-- A step of the check. -/
  | step (exited : Nat → Bool)
  /-- Something else happens to the pool. -/
  | other (event : Depot.Event)
  /-- The files change. -/
  | edit (files : FileTree)

namespace Inspection

/-- The check of a file that is about to begin. -/
def new (rules : Rules) (file : String) (files : FileTree) (depot : Depot) : Inspection where
  rules := rules
  depot := depot
  files := files
  check := .running { file := file }

/-- A step of the check; `none` if there is nothing to do. -/
def stepCheck (s : Inspection) (exited : Nat → Bool) : Option Inspection :=
  (s.check.advance fun v =>
    v.reportStep s.rules s.files (s.depot.surroundings exited) s.depot.pool).map fun (p, t) =>
      { s with
        depot := { s.depot with pool := p }
        check := t
        journal := s.journal ++ s.check.notes s.depot.pool t }

/-- What an event does; `none` if it cannot happen now. -/
def act (s : Inspection) : Event → Option Inspection
  | .step exited => s.stepCheck exited
  | .other e => (s.depot.act e).map fun d => { s with depot := d }
  | .edit t => some { s with files := t }

/-- One event after the other. -/
def follow (s : Inspection) : List Event → Option Inspection
  | [] => some s
  | e :: es => (s.act e).bind fun s => s.follow es

/-- What can come of an inspection by events that have a property where they happen. -/
inductive Run (P : Inspection → Event → Prop) (s : Inspection) : Inspection → Prop where
  | refl : Run P s s
  | step {t u : Inspection} {e : Event} (h : Run P s t) (he : P t e) (ha : t.act e = some u) :
      Run P s u

/-- What can come of the check of a file under some rules, whatever else happens. -/
def Reachable (rules : Rules) (file : String) (s : Inspection) : Prop :=
  ∃ files budget roots directory isProcess clientProcess,
    Run (fun _ _ => True)
      (new rules file files (.new budget roots directory isProcess clientProcess)) s

variable {P Q : Inspection → Event → Prop} {rules : Rules} {file : String} {s t u : Inspection}

theorem Run.trans (h : Run P s t) (h' : Run P t u) : Run P s u := by
  induction h' with
  | refl => exact h
  | step _ he ha ih => exact ih.step he ha

theorem Run.mono (h : Run P s t) (hPQ : ∀ s e, P s e → Q s e) : Run Q s t := by
  induction h with
  | refl => exact .refl
  | step _ he ha ih => exact ih.step (hPQ _ _ he) ha

theorem Run.of_follow {es : List Event} (h : s.follow es = some t) : Run (fun _ _ => True) s t := by
  induction es generalizing s with
  | nil =>
    cases h
    exact .refl
  | cons e es ih =>
    obtain ⟨s₁, ha, h⟩ := Option.bind_eq_some_iff.mp h
    exact (Run.refl.step trivial ha).trans (ih h)

theorem Reachable.run (h : Reachable rules file s) (hr : Run P s t) : Reachable rules file t := by
  obtain ⟨files, budget, roots, directory, isProcess, clientProcess, h⟩ := h
  exact ⟨files, budget, roots, directory, isProcess, clientProcess,
    h.trans (hr.mono fun _ _ _ => trivial)⟩

/-- What holds at the beginning and is kept by every event, holds all the time. -/
theorem Reachable.induct {I : Inspection → Prop}
    (hnew : ∀ files budget roots directory isProcess clientProcess,
      I (new rules file files (.new budget roots directory isProcess clientProcess)))
    (hact : ∀ s e t, Reachable rules file s → I s → s.act e = some t → I t)
    (h : Reachable rules file s) : I s := by
  obtain ⟨files, budget, roots, directory, isProcess, clientProcess, h⟩ := h
  induction h with
  | refl => exact hnew _ _ _ _ _ _
  | step h _ ha ih =>
    exact hact _ _ _ ⟨files, budget, roots, directory, isProcess, clientProcess, h⟩ ih ha

end Inspection

end DiagnosticBroker
