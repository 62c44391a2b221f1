import DiagnosticBroker.Binary64.Basic
import DiagnosticBroker.Duration
import DiagnosticBroker.Fault

/-!
# Repeated attempts

A `Backoff` says how often something is tried and how long the pauses between the attempts are:
each pause is a multiple of the first one, in whole milliseconds, up to a longest one. The multiple
is a power, whose exponent is kept in 32 bits with a sign.

`Backoff.next` decides what follows an attempt. Only a recoverable fault leads to another one.
`Backoff.run` is the loop: it makes the attempts that `next` asks for, and writes down what it does.
-/

namespace DiagnosticBroker

/-- How often something is tried, and the pauses in between. -/
structure Backoff where
  maxAttempts : Nat := 3
  initialDelay : Duration := Duration.ofMillis 100
  maxDelay : Duration := Duration.ofSeconds 5
  factor : Binary64 := Binary64.ofNat 2
deriving DecidableEq, Repr

namespace Backoff

/-- A single attempt (`no_retry`). -/
def once : Backoff := { maxAttempts := 1 }

/-- The pause before the attempt with a number, the first one having the number zero
(`delay_for_attempt`). -/
def delayBefore (b : Backoff) : Nat → Duration
  | 0 => .zero
  | k + 1 =>
    let ms := (Binary64.ofNat b.initialDelay.millis).mul (b.factor.powInt (Word.toI32 k))
    min (Duration.ofMillis (ms.toNatClamped Word.maxU64)) b.maxDelay

/-- The number of attempts: at least one is made. -/
def attempts (b : Backoff) : Nat := max 1 b.maxAttempts

/-- The sum of the pauses if every attempt is made (`total_backoff`). -/
def total (b : Backoff) : Duration :=
  (List.range (b.attempts - 1)).foldl (fun d k => d.add (b.delayBefore (k + 1))) .zero

/-- What follows the failure of an attempt. -/
inductive Next where
  /-- A pause, and then the attempt with this number. -/
  | again (pause : Duration) (attempt : Nat)
  | giveUp
deriving DecidableEq, Repr

/-- What follows the failure of the attempt with a number. -/
def next (b : Backoff) (attempt : Nat) (fault : Fault) : Next :=
  if fault.isRecoverable && attempt + 1 < b.maxAttempts then
    .again (b.delayBefore (attempt + 1)) (attempt + 1)
  else .giveUp

/-- One thing that is done in the course of a run. -/
inductive Deed where
  | pause (length : Duration)
  /-- The operation is called for the attempt with a number. -/
  | call (attempt : Nat)
deriving DecidableEq, Repr

namespace Deed

def pause? : Deed → Option Duration
  | pause d => some d
  | call _ => none

def call? : Deed → Option Nat
  | pause _ => none
  | call k => some k

end Deed

/-- How a run of attempts ends. -/
inductive Ending (α : Type) where
  /-- With the outcome of the last call. -/
  | decided (outcome : Except Fault α)
  /-- No attempt is left, though another one was asked for after the last fault. -/
  | exhausted (last : Option Fault)

/-- A run of attempts: what was done, in order, and how it ended. -/
structure Run (α : Type) where
  deeds : List Deed
  ending : Ending α

namespace Run

variable {α : Type}

/-- The pauses that were made. -/
def pauses (r : Run α) : List Duration := r.deeds.filterMap Deed.pause?

/-- The attempts for which the operation was called. -/
def calls (r : Run α) : List Nat := r.deeds.filterMap Deed.call?

/-- What the run comes to. -/
def outcome (r : Run α) : Except Fault α :=
  match r.ending with
  | .decided o => o
  | .exhausted last => .error (last.getD .cancelled)

end Run

/-- What is done for an attempt: the pause before it, unless it is the first one, and the call. -/
def deedsFor (b : Backoff) (attempt : Nat) : List Deed :=
  if attempt = 0 then [.call attempt] else [.pause (b.delayBefore attempt), .call attempt]

/-- Tries an operation whose attempts have known outcomes, starting at an attempt, after the fault of
the one before; `left` attempts are left. -/
def runFrom {α : Type} (b : Backoff) (outcome : Nat → Except Fault α) (attempt : Nat)
    (last : Option Fault) : (left : Nat) → Run α
  | 0 => ⟨[], .exhausted last⟩
  | left + 1 =>
    match outcome attempt with
    | .ok a => ⟨b.deedsFor attempt, .decided (.ok a)⟩
    | .error f =>
      match b.next attempt f with
      | .again _ k =>
        let r := b.runFrom outcome k (some f) left
        { r with deeds := b.deedsFor attempt ++ r.deeds }
      | .giveUp => ⟨b.deedsFor attempt, .decided (.error f)⟩

/-- Tries an operation whose attempts have known outcomes (`with_retry`). -/
def run {α : Type} (b : Backoff) (outcome : Nat → Except Fault α) : Run α :=
  b.runFrom outcome 0 none b.attempts

end Backoff

end DiagnosticBroker
