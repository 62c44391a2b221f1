import DiagnosticBroker.Collector

/-!
# Waiting for diagnostics

A wait (`wait` of a waiter) ends when a snapshot is there and none has replaced it for a quiet period,
or when its time is up. A snapshot that goes back to pending, because the document was announced anew,
starts the wait over within the same time. Both the time and the quiet period end at a `deadlineAfter`,
whose limit is not that of every clock.
-/

namespace DiagnosticBroker

/-- How far a wait is. -/
inductive Wait.Phase where
  | begin
  /-- Waiting for a first snapshot. -/
  | snapshot (deadline : Time)
  /-- Waiting until the snapshot that was seen has been left alone for long enough. -/
  | quiet (deadline quietUntil : Time) (seen : Nat)

/-- A wait for diagnostics. -/
structure Wait where
  waiter : Waiter
  timeout : Duration
  settle : Duration
  phase : Wait.Phase := .begin

namespace Wait

/-- The outcome of a wait. -/
abbrev Outcome := Except Fault (List Wire.Diagnostic)

/-- The outcome that a snapshot gives. -/
def outcomeOf (uri : String) : Snapshot → Outcome
  | .published ds => .ok ds
  | .pending => .ok []
  | .unreadable reason =>
    .error (.protocol s!"Backend sent unreadable diagnostics for {uri}: {reason}")

/-- The fault of a wait whose time is up. -/
def timedOut (w : Wait) : Fault :=
  .timedOut s!"No diagnostics published for {w.waiter.uri} within {w.timeout.text}"

/-- One step of a wait, from one `timeout_at` of `wait` to the next. A snapshot that is already
there is taken even if no other will come. -/
def step (now : Time) (c : Collector) (w : Wait) : Step Collector Wait Outcome :=
  let ch := c.channelOf w.waiter
  match w.phase with
  | .begin => .next c { w with phase := .snapshot (deadlineAfter now w.timeout) }
  | .snapshot deadline =>
    if !ch.snapshot.isPending then
      if w.settle = .zero then .done c (outcomeOf w.waiter.uri ch.snapshot)
      else
        .next c { w with
          phase := .quiet deadline (min (deadlineAfter now w.settle) deadline) ch.revision }
    else if ch.closed then .done c (.error .notConnected)
    else if deadline ≤ now then .done c (.error w.timedOut)
    else .blocked (some deadline)
  | .quiet deadline quietUntil seen =>
    if ch.revision ≠ seen then .next c { w with phase := .snapshot deadline }
    else if ch.closed then .done c (.error .notConnected)
    else if quietUntil ≤ now then .done c (outcomeOf w.waiter.uri ch.snapshot)
    else .blocked (some quietUntil)

end Wait

end DiagnosticBroker
