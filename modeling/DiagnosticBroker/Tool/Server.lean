import DiagnosticBroker.Step
import DiagnosticBroker.Tool.Line

/-!
# The tool server

The server (`run` of a `ToolServer`) reads lines until its input ends, and lets each of them be worked
on by a task of its own (`spawn_request`), of which a limited number may run at the same time. Every now
and then it has unused backends stopped. When the input has ended it waits for its tasks and then has
all backends stopped.

Tasks send their responses to a writer (`write_loop`), which puts out one after the other and ends when
nobody is left who may send. The server stops when the writer has ended.

Who checks files is a `Checker`, so that nothing here depends on how that is done.
-/

namespace DiagnosticBroker.Tool

/-- Somebody who checks files (`Validator`), on a state `σ`; `π` tells how far a piece of this work
is. -/
structure Checker (σ π : Type) where
  /-- The check of a file. -/
  check : String → π
  /-- Stopping the backends that have not been used for some time. -/
  reap : Duration → π
  /-- Stopping all backends. -/
  shutdown : π
  /-- One step. The result of a check is a report, unless it died. -/
  step : Time → σ → π → Step σ π (Option Report)
  /-- What is left of the state when a piece of work is given up. -/
  cancel : Time → σ → π → σ

/-! ## State -/

/-- How the reading of the input came to its end. -/
inductive Ending where
  /-- The input is at its end. -/
  | complete
  /-- A line was not text. -/
  | unreadable
deriving DecidableEq, Repr

/-- The server's own state. -/
structure Server where
  policy : ServerPolicy
  /-- The bytes that have arrived and that were not read. -/
  input : List UInt8 := []
  /-- Whether no more bytes will arrive. -/
  inputClosed : Bool := false
  /-- The lines that were taken, in order. -/
  lines : List String := []
  /-- How often unused backends were looked for. -/
  reaps : Nat := 0
  /-- How many intervals between two such looks have begun. -/
  ticks : Nat := 0
  /-- How many tasks are not over. -/
  unfinished : Nat := 0
  /-- How many more tasks may begin their work. -/
  free : Nat
  /-- The lines whose tasks wait for their turn, the one that has waited longest first. -/
  queue : List Nat := []
  /-- How many may still send responses: the server itself and its tasks. -/
  senders : Nat := 1
  /-- The responses that were sent and that are not put out, in order. -/
  outbox : List Response := []
  /-- The responses that were put out, with the time of each. -/
  output : List (Time × Response) := []
  /-- Whether the writer has ended. -/
  writerEnded : Bool := false
  /-- How the reading ended, if it has. -/
  ending : Option Ending := none
  /-- Whether everything is done. -/
  stopped : Bool := false

namespace Server

/-- A server that has read nothing. -/
def ofPolicy (policy : ServerPolicy) : Server :=
  { policy := policy, free := policy.maxConcurrent }

/-- The most tasks that can be let run at the same time: the permits of a `Semaphore` are counted in
a word of which three bits are used for other things. -/
def maxPermits : Nat := Word.maxU64 >>> 3

/-- The server for a policy. There is none if more tasks are to run than can be counted: making the
`Semaphore` panics. -/
def ofPolicy? (policy : ServerPolicy) : Option Server :=
  if policy.maxConcurrent ≤ maxPermits then some (ofPolicy policy) else none

/-- Bytes arrive. -/
def feed (s : Server) (bytes : List UInt8) : Server := { s with input := s.input ++ bytes }

/-- The input is at its end. -/
def closeInput (s : Server) : Server := { s with inputClosed := true }

/-- The time of the next look for unused backends. -/
def nextTick (s : Server) : Time := deadlineAfter 0 (s.policy.reapInterval.mul s.ticks)

/-- The time for a look for unused backends has come (the arm of the loop in `run` that calls
`reap_idle`). -/
def tick (s : Server) : Server :=
  let s := { s with ticks := s.ticks + 1 }
  match s.policy.idleTimeout with
  | some _ => { s with reaps := s.reaps + 1, unfinished := s.unfinished + 1 }
  | none => s

/-- Takes a line; a blank one is passed over (the arm of the loop in `run` that takes lines). -/
def takeLine (s : Server) (line : String) (rest : List UInt8) : Server :=
  if isBlankLine line then { s with input := rest }
  else
    { s with
      input := rest
      lines := s.lines ++ [line]
      unfinished := s.unfinished + 1
      senders := s.senders + 1 }

/-- Whether it is the turn of the task for a line: there is room for it and for all before it. -/
def isTurnOf (s : Server) (n : Nat) : Bool := s.queue.idxOf n < s.free

/-- The task for a line begins its work. -/
def beginTask (s : Server) (n : Nat) : Server :=
  { s with queue := s.queue.filter (· ≠ n), free := s.free - 1 }

/-- The task for a line is over, with a response or none. -/
def finish (s : Server) (r : Option Response) : Server :=
  { s with
    free := s.free + 1
    unfinished := s.unfinished - 1
    senders := s.senders - 1
    outbox := s.outbox ++ r.toList }

/-- The look for unused backends is over. -/
def finishReap (s : Server) : Server := { s with unfinished := s.unfinished - 1 }

/-- The server itself will send nothing any more. -/
def leaveOutbox (s : Server) : Server := { s with senders := s.senders - 1 }

end Server

/-! ## Tasks -/

/-- How far the task for a line is. -/
inductive Task (π : Type) where
  | arrived
  | queued
  /-- It is about to find out what the line asks for. -/
  | begun (deadline : Time)
  | checking (deadline : Time) (id : Option Wire.Id) (check : π)

/-- What the server does. -/
inductive Activity (π : Type) where
  /-- Putting out responses. -/
  | writing
  /-- Reading the input. -/
  | reading
  /-- Waiting for the tasks. -/
  | draining
  | stopping (shutdown : π)
  /-- Waiting for the writer. -/
  | closing
  /-- The task for the line with a number. -/
  | task (number : Nat) (task : Task π)
  | reaping (reap : π)

/-- A server and the state of those who check files for it. -/
structure Serving (σ : Type) where
  server : Server
  rest : σ

namespace Activity

variable {σ π : Type}

/-- Goes on with a changed server. -/
def goOn (s : Serving σ) (server : Server) (a : Activity π) : Step (Serving σ) (Activity π) Unit :=
  .next { s with server := server } a

/-- One step of reading the input (the loop in `run`). -/
def read (now : Time) (s : Serving σ) : Step (Serving σ) (Activity π) Unit :=
  let server := s.server
  match Incoming.next server.inputClosed server.input with
  | .line line rest => goOn s (server.takeLine line rest) .reading
  | .unreadable => goOn s { server with ending := some .unreadable } .draining
  | .ended => goOn s { server with ending := some .complete } .draining
  | .waiting =>
    if server.nextTick ≤ now then goOn s server.tick .reading
    else .blocked (some server.nextTick)

/-- One step of putting out responses (`write_loop`). -/
def write (now : Time) (s : Serving σ) : Step (Serving σ) (Activity π) Unit :=
  match s.server.outbox with
  | r :: rest =>
    goOn s { s.server with outbox := rest, output := s.server.output ++ [(now, r)] } .writing
  | [] =>
    if s.server.senders = 0 then .done { s with server := { s.server with writerEnded := true } } ()
    else .blocked none

/-- The end of the task for a line. -/
def finish (s : Serving σ) (r : Option Response) : Step (Serving σ) (Activity π) Unit :=
  .done { s with server := s.server.finish r } ()

/-- One step of the task for a line (`spawn_request`). -/
def stepTask (c : Checker σ π) (now : Time) (s : Serving σ) (n : Nat) (line : String) :
    Task π → Step (Serving σ) (Activity π) Unit
  | .arrived => goOn s { s.server with queue := s.server.queue ++ [n] } (.task n .queued)
  | .queued =>
    if s.server.isTurnOf n then
      goOn s (s.server.beginTask n)
        (.task n (.begun (deadlineAfter now s.server.policy.requestTimeout)))
    else .blocked none
  | .begun deadline =>
    match Demand.ofLine line with
    | .nothing => finish s none
    | .answer r => finish s (some r)
    | .check id file => .next s (.task n (.checking deadline id (c.check file)))
  | .checking deadline id x =>
    (((c.step now s.rest x).lift fun st => { s with rest := st }).within
      (fun x => .task n (.checking deadline id x))
      fun s r => finish s (r.map fun r => .success id r.toolResult)).orAt now deadline
        (finish { s with rest := c.cancel now s.rest x }
          (overdue? line s.server.policy.requestTimeout))

/-- One step of what the server does. -/
def step (c : Checker σ π) (now : Time) (s : Serving σ) :
    Activity π → Step (Serving σ) (Activity π) Unit
  | .writing => write now s
  | .reading => read now s
  | .draining => if s.server.unfinished = 0 then .next s (.stopping c.shutdown) else .blocked none
  | .stopping x =>
    ((c.step now s.rest x).lift fun st => { s with rest := st }).within .stopping fun s _ =>
      goOn s s.server.leaveOutbox .closing
  | .closing =>
    if s.server.writerEnded then .done { s with server := { s.server with stopped := true } } ()
    else .blocked none
  | .task n t =>
    match s.server.lines[n]? with
    | some line => stepTask c now s n line t
    | none => .blocked none
  | .reaping x =>
    ((c.step now s.rest x).lift fun st => { s with rest := st }).within .reaping fun s _ =>
      .done { s with server := s.server.finishReap } ()

/-- What a change of the server has brought into being: a task for each new line, and new looks for
unused backends. -/
def spawned (c : Checker σ π) (before after : Server) : List (Activity π) :=
  let tasks := (List.range' before.lines.length (after.lines.length - before.lines.length)).map
    fun n => Activity.task n .arrived
  let reaps := match after.policy.idleTimeout with
    | some d => List.replicate (after.reaps - before.reaps) (Activity.reaping (c.reap d))
    | none => []
  tasks ++ reaps

end Activity

end DiagnosticBroker.Tool
