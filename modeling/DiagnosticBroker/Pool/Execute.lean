import DiagnosticBroker.Pool.Ensure

/-!
# Working with a backend that may die

A piece of work is given a ready instance (`execute_with_retry`). If it fails because the backend is
gone, the instance is taken out of use, and after a pause the work is done again with a new one, as
often as a start is tried.
-/

namespace DiagnosticBroker

/-- A kind of work that is done with a ready instance: `π` tells how far one run is. -/
structure Work (π α : Type) where
  /-- Begins the run with a number, the first one being zero, with an instance. -/
  begin : Nat → Nat → π
  step : Surroundings → Pool → π → Step Pool π (Except Fault α)

/-- How far the work is. -/
inductive Execute.Phase (π : Type) where
  | ensuring (ensure : Ensure)
  | running (index : Nat) (run : π)
  | retiring (index : Nat) (retire : Retire)
  | pausing (deadline : Time)

/-- Work that is done with a backend. -/
structure Execute (π : Type) where
  backend : Backend
  /-- How many runs have failed because the backend was gone. -/
  restarts : Nat := 0
  phase : Execute.Phase π

namespace Execute

variable {π α : Type}

/-- The work before its first step. -/
def start (b : Backend) : Execute π := { backend := b, phase := .ensuring { backend := b } }

def enter (x : Execute π) (phase : Execute.Phase π) : Execute π := { x with phase := phase }

/-- What follows a run. -/
def ran (p : Pool) (x : Execute π) (i : Nat) :
    Except Fault α → Step Pool (Execute π) (Except Fault α)
  | .ok a => .done p (.ok a)
  | .error f =>
    if f.needsRestart && x.restarts + 1 < p.budget.startAttempts then
      .next p (x.enter (.retiring i .remove))
    else .done p (.error f)

/-- One step of the work, from one await of `execute_with_retry` to the next. -/
def step (k : Work π α) (w : Surroundings) (p : Pool) (x : Execute π) :
    Step Pool (Execute π) (Except Fault α) :=
  match x.phase with
  | .ensuring e =>
    (e.step w p).within (fun e => x.enter (.ensuring e)) fun p r =>
      match r with
      | .ok i => .next p (x.enter (.running i (k.begin x.restarts i)))
      | .error f => .done p (.error f)
  | .running i r =>
    (k.step w p r).within (fun r => x.enter (.running i r)) fun p r => ran p x i r
  | .retiring i r =>
    (r.step w p x.backend.command i).within (fun r => x.enter (.retiring i r)) fun p () =>
      .next p (x.enter (.pausing (deadlineAfter w.now p.budget.restartBackoff)))
  | .pausing deadline =>
    if deadline ≤ w.now then
      .next p { x with restarts := x.restarts + 1, phase := .ensuring { backend := x.backend } }
    else .blocked (some deadline)

end Execute

end DiagnosticBroker
