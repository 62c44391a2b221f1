import DiagnosticBroker.Pool.Basic

/-!
# Starting a backend with all its attempts

A start (`run` of a `StartJob`) launches the backend and starts it (`spawn_once`); if that fails in a
way that another attempt may mend, it stops what it launched and tries again after a pause
(`with_retry`). A command whose attempts are used up gets only one attempt the next time. In the end the
start settles the slot of its command and wakes everybody who waits for it.
-/

namespace DiagnosticBroker.StartJob

/-- Begins an attempt with a launch, in the first of the directories (`spawn_once`). -/
def beginAttempt (now : Time) (p : Pool) (j : StartJob) (attempt : Nat) : Pool × StartJob :=
  let (p, l) := p.launch now j.backend p.roots.head?
  (p, { j with phase := .launching attempt l })

/-- What follows a failed attempt (`with_retry`). -/
def afterFailure (now : Time) (j : StartJob) (attempt : Nat) (f : Fault) : StartJob :=
  match j.policy.next attempt f with
  | .again pause k => { j with phase := .pausing k (deadlineAfter now pause) }
  | .giveUp =>
    { j with phase := if f.isRecoverable then .marking else .settling (.error f) }

/-- Decides how many attempts there are, and begins the first one (`run`). -/
def decide (now : Time) (p : Pool) (j : StartJob) : Pool × StartJob :=
  let key := j.backend.command
  let policy := if key ∈ p.unavailable then Backoff.once else p.budget.startBackoff
  let p := { p with unavailable := p.unavailable.filter (· ≠ key) }
  beginAttempt now p { j with policy := policy } 0

/-- Settles the slot and wakes those who wait (the end of `run`). -/
def settle (p : Pool) (j : StartJob) (r : StartResult) : Pool × StartJob :=
  let key := j.backend.command
  let p :=
    match r with
    | .ok i => p.setSlot key (.ready i p.uptime)
    | .error _ => p.clearSlot key
  (p, { j with phase := .over r, notices := j.notices + 1 })

/-- Clears the slot of a start that died, if it still holds it, and wakes those who wait (the drop
of a `StartGuard`). -/
def clear (p : Pool) (number : Nat) (j : StartJob) (cause : String) : Pool × StartJob :=
  let key := j.backend.command
  let p := if p.slot? key = some (.initializing number) then p.clearSlot key else p
  (p, { j with phase := .cleared cause, notices := j.notices + 1 })

/-- Keeps how far the start is. -/
def goOn (number : Nat) (pj : Pool × StartJob) : Step Pool Unit Unit :=
  .next (pj.1.setStart number pj.2) ()

/-- One step of the start with a number, given how far it is. -/
def stepOf (w : Surroundings) (p : Pool) (number : Nat) (j : StartJob) : Step Pool Unit Unit :=
  match j.phase with
  | .begin => goOn number (decide w.now p j)
  | .launching attempt l =>
    match p.launchOutcome? l with
    | none => .blocked none
    | some .connected =>
      let (p, i) := p.addInstance j.backend
      let start : Instance.Start := ⟨l, w.isProcess, w.clientProcess, .begin⟩
      goOn number (p, { j with phase := .starting attempt i start })
    | some (.refused f) => goOn number (p, afterFailure w.now j attempt f)
    | some (.crashed task words) =>
      .later (p.setStart number { j with phase := .crashed (causeOfDeath task words) }) ()
  | .starting attempt i s =>
    match p.onInstance i (s.step w.now) with
    | .blocked u => .blocked u
    | .next p s => goOn number (p, { j with phase := .starting attempt i s })
    | .later p s => goOn number (p, { j with phase := .starting attempt i s })
    | .done p (.ok ()) => goOn number (p, { j with phase := .settling (.ok i) })
    | .done p (.error f) => goOn number (p, { j with phase := .stopping attempt i .begin f })
  | .stopping attempt i s f =>
    match p.onInstance i (s.step w.exited w.now) with
    | .blocked u => .blocked u
    | .next p s => goOn number (p, { j with phase := .stopping attempt i s f })
    | .later p s => goOn number (p, { j with phase := .stopping attempt i s f })
    | .done p () => goOn number (p, afterFailure w.now j attempt f)
  | .pausing attempt deadline =>
    if deadline ≤ w.now then goOn number (beginAttempt w.now p j attempt)
    else .blocked (some deadline)
  | .marking =>
    let key := j.backend.command
    let p := { p with unavailable := key :: p.unavailable.filter (· ≠ key) }
    let f := Fault.unresponsive key.text j.policy.maxAttempts
    goOn number (p, { j with phase := .settling (.error f) })
  | .settling r => if p.held then .blocked none else goOn number (settle p j r)
  | .crashed cause => if p.held then .blocked none else goOn number (clear p number j cause)
  | .over _ => .done p ()
  | .cleared _ => .done p ()

/-- One step of the start with a number. -/
def step (w : Surroundings) (p : Pool) (number : Nat) : Step Pool Unit Unit :=
  match p.start? number with
  | some j => stepOf w p number j
  | none => .done p ()

end DiagnosticBroker.StartJob
