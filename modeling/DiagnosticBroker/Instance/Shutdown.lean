import DiagnosticBroker.Instance.Exchange

/-!
# Stopping a backend

A backend that still answers is asked to shut down and then told to exit (`shutdown`). Its input is
closed after the frames that are queued, its process is given some time to end, and everything that
still waits for the backend is failed.
-/

namespace DiagnosticBroker.Instance

/-- How long a backend may take to agree to a shutdown, and then to read what is queued
(`GRACEFUL_SHUTDOWN`). -/
def gracePeriod : Duration := .ofSeconds 2

/-- How long a process may take to end (`EXIT_WAIT`). -/
def exitPeriod : Duration := .ofSeconds 5

/-- How far a shutdown is. -/
inductive Shutdown where
  | begin
  /-- The backend has been asked to shut down. -/
  | asking (exchange : Exchange) (deadline : Time)
  /-- The writer of a link is given time to write what is queued. -/
  | draining (link : Nat) (deadline : Time)
  /-- The process is about to be looked after. -/
  | reaping
  /-- The process is given time to end. -/
  | exiting (process : Nat) (deadline : Time)
  /-- What still waits is about to be failed. -/
  | failing

namespace Shutdown

/-- Closes the input of the backend. -/
def close (now : Time) (i : Instance) : Step Instance Shutdown Unit :=
  let i := { i with lifecycle := .terminated }.hangUp
  match i.writer with
  | some k => .next { i with writer := none } (.draining k (deadlineAfter now gracePeriod))
  | none => .next i .reaping

/-- What follows the answer to the question to shut down: the backend is told to exit if it
agreed. -/
def answered (now : Time) (i : Instance) : Answer → Step Instance Shutdown Unit
  | .ok _ => close now (i.notify "exit" none).1
  | .error _ => close now i

/-- One step of a shutdown, from one await of `shutdown` to the next. `exited` tells which processes
have ended. -/
def step (exited : Nat → Bool) (now : Time) (i : Instance) : Shutdown → Step Instance Shutdown Unit
  | .begin =>
    if i.lifecycle = .terminated then .done i ()
    else if i.lifecycle = .ready || i.lifecycle = .initialized then
      match Exchange.start i "shutdown" none with
      | (i, .ok x) => .next i (.asking x (deadlineAfter now gracePeriod))
      | (i, .error _) => close now i
    else close now i
  | .asking x deadline =>
    ((x.step now i).within (fun x => .asking x deadline) (answered now)).orAt now deadline
      (close now i)
  | .draining k deadline =>
    if i.writerEnded k || deadline ≤ now then .next i .reaping else .blocked (some deadline)
  | .reaping =>
    match i.process with
    | some p => .next { i with process := none } (.exiting p (deadlineAfter now exitPeriod))
    | none => .next i .failing
  | .exiting p deadline =>
    if exited p || deadline ≤ now then .next i .failing else .blocked (some deadline)
  | .failing =>
    let i := i.failPending (.new Fault.cancelledCode "Backend shutdown")
    .done { i with collector := i.collector.disconnect } ()

end Shutdown

end DiagnosticBroker.Instance
