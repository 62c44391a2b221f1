import DiagnosticBroker.Duration

/-!
# Steps of operations

An operation that has to wait in between is a value that says how far it is. One step leads from one
waiting point to the next, and between two steps anything else may happen. `Step` is what a step
says: that nothing can be done yet, how the operation goes on, or its result.
-/

namespace DiagnosticBroker

/-- Virtual time in milliseconds. -/
abbrev Time := Nat

/-- What the next step of an operation comes to. `σ` is the state that operations share, `ρ` tells
how far the operation is, and `α` is its result. -/
inductive Step (σ ρ α : Type) where
  /-- Nothing can be done before the state changes or the given time comes. -/
  | blocked (until? : Option Time)
  /-- The operation goes on from here. -/
  | next (state : σ) (rest : ρ)
  /-- The operation goes on from here, after everything else that can be done now. -/
  | later (state : σ) (rest : ρ)
  /-- The operation is over. -/
  | done (state : σ) (result : α)

namespace Step

variable {σ τ ρ π α β : Type}

def isBlocked : Step σ ρ α → Bool
  | blocked _ => true
  | _ => false

/-- The same step of an operation that this one is a part of: `rest` tells how far the whole is
while the part goes on, and `finish` what the whole does with its result. -/
def within (s : Step σ ρ α) (rest : ρ → π) (finish : σ → α → Step σ π β) : Step σ π β :=
  match s with
  | blocked u => blocked u
  | next st r => next st (rest r)
  | later st r => later st (rest r)
  | done st a => finish st a

/-- The same step in a state that the shared one is a part of. -/
def lift (s : Step σ ρ α) (put : σ → τ) : Step τ ρ α :=
  match s with
  | blocked u => blocked u
  | next st r => next (put st) r
  | later st r => later (put st) r
  | done st a => done (put st) a

/-- The step, but blocked no longer than to a deadline; after it, what `expire` says. -/
def orAt (s : Step σ ρ α) (now deadline : Time) (expire : Step σ ρ α) : Step σ ρ α :=
  match s with
  | blocked u =>
    if deadline ≤ now then expire
    else
      match u with
      | some t => blocked (some (min t deadline))
      | none => blocked (some deadline)
  | s => s

end Step

/-! ## Timers -/

/-- The shortest duration that counts as beyond what a clock can show: `2 ^ 63` seconds less `2 ^ 32`.
The seconds of an `Instant` have 63 bits, and what it shows when a timer starts takes away from them.
What it shows is left out here: on a clock that has run for less than `2 ^ 32` seconds, no shorter
duration is beyond its end, and every one of `2 ^ 63` seconds is; those in between are taken to be. -/
def clockLimit : Duration := .ofSeconds 9223372032559808512

/-- How long a timer runs whose duration is beyond what a clock can show: thirty years. -/
def farFuture : Duration := .ofSeconds (86400 * 365 * 30)

/-- The time at which a timer ends (`deadline_after`). Timers go in whole milliseconds, so a part of one
counts in full. Where `checked_add` fails depends on the clock, for which `clockLimit` stands. -/
def deadlineAfter (now : Time) (d : Duration) : Time :=
  now + (if clockLimit ≤ d then farFuture else d).millisUp

end DiagnosticBroker
