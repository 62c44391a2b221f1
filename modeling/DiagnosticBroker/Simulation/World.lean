import DiagnosticBroker.Instance.Incoming
import DiagnosticBroker.Pool.Start
import DiagnosticBroker.Pool.Stop
import DiagnosticBroker.Simulation.Programs
import DiagnosticBroker.Simulation.Schedule
import DiagnosticBroker.Validation

/-!
# A world of scripted backends

A `World` is a pool together with the backends that its launches lead to. `Op` is everything that
can be under way in it: what the pool starts on its own (the two tasks of each link, the starts, and
the closing of documents that were left open), the scripted backends, and what is asked of the pool
from outside. `World.machine` puts the steps of all of them together.
-/

namespace DiagnosticBroker.Simulation

/-! ## Worlds -/

/-- What launches lead to. -/
inductive Launcher where
  /-- Backends with one script for each launch; the last one repeats. -/
  | scripted (scripts : List Script)
  /-- Processes. -/
  | processes

/-- A pool, files, and scripted backends. -/
structure World where
  pool : Pool
  files : FileTree
  rules : Rules
  launcher : Launcher
  /-- The backends by the number of their launch, in the order in which they connected. -/
  peers : List (Nat × Peer) := []
  /-- What backends have seen, with the number of their launch. -/
  events : List (Nat × Event) := []
  /-- The log lines of backends, with their command. -/
  lines : List (Command × Wire.LogLine) := []

namespace World

def peer? (w : World) (l : Nat) : Option Peer := w.peers.lookup l

def setPeer (w : World) (l : Nat) (p : Peer) : World :=
  { w with peers := w.peers.map fun e => if e.1 = l then (l, p) else e }

/-- Whether the process of a launch has ended, or was never there. -/
def peerHasExited (w : World) (l : Nat) : Bool := ((w.peer? l).map Peer.hasExited).getD true

/-- Whether backends are processes. -/
def isProcess (w : World) : Bool :=
  match w.launcher with
  | .scripted _ => false
  | .processes => true

/-- What operations of the pool have to know of the world. -/
def surroundings (w : World) (now : Time) : Surroundings where
  now := now
  exited l := w.isProcess && w.peerHasExited l
  isProcess := w.isProcess
  clientProcess := 0

/-- The world at a time. The age of slots goes with real time, which is the time of the world only if
backends are processes. -/
def atTime (w : World) (now : Time) : World :=
  if w.isProcess then
    { w with pool := { w.pool with uptime := max w.pool.uptime (Duration.ofMillis now).nanos } }
  else w

/-- The directory that the process of a launch runs in: that of the launch, if there is one. -/
def directoryOf (w : World) (launch : Launch) : String :=
  match launch.workdir with
  | none => w.pool.directory
  | some d =>
    match w.files.open? w.pool.directory d with
    | .ok .directory => d
    | _ => w.pool.directory

/-- The script of a launch. -/
def script (w : World) (l : Nat) (launch : Launch) : Script :=
  match w.launcher with
  | .scripted scripts => (nthOrLast scripts l).getD {}
  | .processes => Programs.script w.files (w.directoryOf launch) launch.backend.command

def addEvents (w : World) (l : Nat) (es : List Event) : World :=
  { w with events := w.events ++ es.map fun e => (l, e) }

/-- Takes over a changed pool. Time goes on a little, and new launches are noted. -/
def setPool (w : World) (p : Pool) : World :=
  let launched := (p.launches.zipIdx.drop w.pool.launches.length).map fun e =>
    (e.2, Event.launched e.1.backend.command e.1.workdir)
  { w with pool := { p with uptime := w.pool.uptime + 1 }, events := w.events ++ launched }

/-- One step of an operation of the pool. -/
def onPool {ρ α : Type} (w : World) (s : Step Pool ρ α) : Step World ρ α := s.lift w.setPool

/-- Changes an instance. -/
def modifyInstance (w : World) (i : Nat) (f : Instance → Instance) : World :=
  w.setPool (w.pool.modifyInstance i f)

/-! ## Launches -/

/-- Lets a launch that is under way in a task come to its end once its time has passed; `none` if
there is nothing to do. -/
def landLaunch (now : Time) (w : World) (task l : Nat) : Option (Step World Unit Unit) :=
  match w.pool.launches[l]? with
  | none => none
  | some launch =>
    if launch.outcome.isSome then none
    else
      let script := w.script l launch
      let deadline := deadlineAfter launch.begun script.launchDelay
      if now < deadline then some (.blocked (some deadline))
      else
        let resolve (o : LaunchOutcome) : World := w.setPool (w.pool.resolveLaunch l o)
        if script.crashes then some (.next (resolve (.crashed task "launcher died")) ())
        else
          match script.failure with
          | some f => some (.next (resolve (.refused f)) ())
          | none =>
            let w := resolve .connected
            some (.next { w with peers := w.peers ++ [(l, .ofScript script)] } ())

/-- One step of a start of the pool, its launches included. The tasks of starts are counted from
one. -/
def startStep (now : Time) (w : World) (j : Nat) : Step World Unit Unit :=
  let land := match (w.pool.start? j).map (·.phase) with
    | some (.launching _ l) => w.landLaunch now (j + 1) l
    | _ => none
  match land with
  | some s => s
  | none => w.onPool (StartJob.step (w.surroundings now) w.pool j)

/-! ## Links -/

def link? (w : World) (i k : Nat) : Option Link := (w.pool.instance? i).bind (·.link? k)

/-- The client closes the input of a backend. -/
def closeInput (w : World) (l : Nat) : World :=
  match w.peer? l with
  | some p => w.setPeer l { p with inputClosed := true }
  | none => w

/-- A message arrives at a backend, if it is there and has room for it. -/
def deliver (w : World) (l : Nat) (m : Wire.Message) (size : Nat) : Option (Option World) :=
  match w.peer? l with
  | none => none
  | some p =>
    if p.isGone then none
    else if p.accepts size then some (some (w.setPeer l (p.receive m size)))
    else some none

/-- One step of the writer of a link. -/
def writerStep (w : World) (i k : Nat) : Step World Unit Unit :=
  match w.link? i k with
  | none => .done w ()
  | some link =>
    match link.writer with
    | .ended => .done w ()
    | .failing => .next (w.modifyInstance i (·.failFrames k)) ()
    | .frame m size =>
      match w.deliver link.launch m size with
      | none => .next (w.modifyInstance i (·.failWriter k)) ()
      | some none => .blocked none
      | some (some w) => .next (w.modifyInstance i (·.setWriter k .idle)) ()
    | .idle =>
      match Instance.nextFrame? link with
      | some m => .next (w.modifyInstance i (·.takeFrame k m)) ()
      | none =>
        if link.sealed then
          .next ((w.closeInput link.launch).modifyInstance i (·.setWriter k .ended)) ()
        else .blocked none

/-- Takes in a message that was read on a link, and keeps the log lines that it brings. -/
def receive (now : Time) (w : World) (i k : Nat) (m : Wire.Message) : World :=
  match w.pool.instance? i with
  | none => w
  | some x =>
    let y := x.receive now k m
    let w := w.setPool (w.pool.setInstance i y)
    { w with lines := w.lines ++ (y.log.drop x.log.length).map fun l => (x.backend.command, l) }

/-- One step of the reader of a link. -/
def readerStep (now : Time) (w : World) (i k : Nat) : Step World Unit Unit :=
  match w.link? i k with
  | none => .done w ()
  | some link =>
    match link.reader with
    | .ended => .done w ()
    | .idle =>
      match w.peer? link.launch with
      | none => .next (w.modifyInstance i (·.loseStream k)) ()
      | some p =>
        match Wire.Frame.next p.isGone p.output with
        | .needMore => .blocked none
        | .message m rest =>
          .next ((w.setPeer link.launch { p with output := rest }).receive now i k m) ()
        | .fault _ => .next (w.modifyInstance i (·.loseStream k)) ()
    | r => .next (w.modifyInstance i (·.readerStep k r)) ()

/-! ## Backends -/

/-- Whether neither end of the client's side of a launch's link is in use any more. -/
def isHungUp (w : World) (l : Nat) : Bool :=
  w.pool.instances.any fun x => x.links.any fun link =>
    link.launch = l && link.writer.isEnded && link.reader.isEnded

/-- One step of a scripted backend. -/
def peerStep (now : Time) (w : World) (l : Nat) : Step World Unit Unit :=
  match w.peer? l with
  | none => .done w ()
  | some p =>
    match { p with outputClosed := w.isHungUp l }.step now with
    | .blocked u => .blocked u
    | .next p es => .next ((w.setPeer l p).addEvents l es) ()
    | .later p es => .next ((w.setPeer l p).addEvents l es) ()
    | .done p _ => .done (w.setPeer l p) ()

end World

/-! ## What is asked of the pool -/

/-- What one run of scripted work comes to. -/
inductive RunOutcome where
  | ok (result : Json)
  | err (fault : Fault)
  /-- The answer of the instance to a request. -/
  | request (method : String)

/-- How far one run of scripted work is. -/
inductive Run where
  | begin (index : Nat) (outcome : RunOutcome)
  | exchange (index : Nat) (exchange : Instance.Exchange)

namespace Run

/-- One step of a run. -/
def step (s : Surroundings) (p : Pool) : Run → Step Pool Run (Except Fault Json)
  | .begin _ (.ok j) => .done p (.ok j)
  | .begin _ (.err f) => .done p (.error f)
  | .begin i (.request method) =>
    p.onInstance i fun x =>
      match Instance.Exchange.start x method none with
      | (x, .ok e) => .next x (.exchange i e)
      | (x, .error f) => .done x (.error f)
  | .exchange i e => (p.onInstance i (e.step s.now)).within (.exchange i) fun p a => .done p a

/-- Scripted work: the outcome of each run; the last one repeats. -/
def work (outcomes : List RunOutcome) : Work Run Json where
  begin n i := .begin i ((nthOrLast outcomes n).getD (.ok .null))
  step := step

end Run

/-- The result of something that was asked of the pool. Instances are named by their indices. -/
inductive Outcome where
  | none
  | count (number : Nat)
  | started (result : Except Fault Unit)
  | answered (result : Instance.Answer)
  | waited (result : Wait.Outcome)
  | opened (result : Except Fault Session)
  | ensured (result : StartResult)
  /-- Each run's instance is named too. -/
  | executed (result : Except Fault Json) (instances : List Nat)
  | validated (file : String) (result : Validation.Outcome)
  | cancelled

/-- How far a launch for a given instance is. -/
inductive Boot where
  | begin
  | launching (launch : Nat)
  | starting (start : Instance.Start)

/-- Everything that can be under way in a world. -/
inductive Op where
  | peer (launch : Nat)
  | writer (index link : Nat)
  | reader (index link : Nat)
  | start (start : Nat)
  | closeLeftOpen (number : Nat)
  /-- Nothing happens for some time. -/
  | sleep (duration : Duration)
  | asleep (deadline : Time)
  | boot (index : Nat) (boot : Boot)
  | request (index : Nat) (method : String) (params : Option Json)
  | exchange (index : Nat) (exchange : Instance.Exchange)
  | wait (index : Nat) (wait : Wait)
  | shutdown (index : Nat) (shutdown : Instance.Shutdown)
  | opening (opening : Session.Opening)
  | ensure (ensure : Ensure)
  | execute (outcomes : List RunOutcome) (execute : Execute Run) (instances : List Nat)
  | stop (stop : Stop)
  | validate (validation : Validation)
  /-- An operation that is given up after some time. -/
  | limited (after : Duration) (op : Op)
  | limitedUntil (deadline : Time) (op : Op)

namespace Op

/-- Launches a backend for an instance, without a directory, and starts the instance with it. -/
def bootStep (now : Time) (w : World) (i : Nat) : Boot → Step World Op Outcome
  | .begin =>
    match w.pool.instance? i with
    | none => .blocked none
    | some x =>
      let (p, l) := w.pool.launch now x.backend none
      .next (w.setPool p) (.boot i (.launching l))
  | .launching l =>
    match w.landLaunch now 0 l with
    | some s =>
      s.within (fun _ => .boot i (.launching l)) fun w _ => .next w (.boot i (.launching l))
    | none =>
      match w.pool.launchOutcome? l with
      | some (.refused f) => .done w (.started (.error f))
      | some .connected =>
        .next w (.boot i (.starting
          ⟨l, w.isProcess, (w.surroundings now).clientProcess, .begin⟩))
      | _ => .blocked none
  | .starting s =>
    (w.onPool (w.pool.onInstance i (s.step now))).within (fun s => .boot i (.starting s))
      fun w r => .done w (.started r)

/-- Begins a request to an instance. -/
def requestStep (w : World) (i : Nat) (method : String) (params : Option Json) :
    Step World Op Outcome :=
  w.onPool (w.pool.onInstance i fun x =>
    match Instance.Exchange.start x method params with
    | (x, .ok e) => .next x (.exchange i e)
    | (x, .error f) => .done x (.answered (.error f)))

/-- The instance that a piece of work has just been given, if it has. -/
def newRun? (before after : Execute Run) : Option Nat :=
  match before.phase, after.phase with
  | .ensuring _, .running i _ => some i
  | _, _ => none

/-- One step of scripted work, which notes the instances that it is given. -/
def executeStep (now : Time) (w : World) (outcomes : List RunOutcome) (x : Execute Run)
    (instances : List Nat) : Step World Op Outcome :=
  match w.onPool (x.step (Run.work outcomes) (w.surroundings now) w.pool) with
  | .blocked u => .blocked u
  | .next w y =>
    match newRun? x y with
    | some i => .next w (.execute outcomes y (instances ++ [i]))
    | none => .next w (.execute outcomes y instances)
  | .later w y => .later w (.execute outcomes y instances)
  | .done w r => .done w (.executed r instances)

/-- One step of an operation. -/
def step (now : Time) (w : World) : Op → Step World Op Outcome
  | .peer l => (w.peerStep now l).within (fun _ => .peer l) fun w _ => .done w .none
  | .writer i k => (w.writerStep i k).within (fun _ => .writer i k) fun w _ => .done w .none
  | .reader i k => (w.readerStep now i k).within (fun _ => .reader i k) fun w _ => .done w .none
  | .start j => (w.startStep now j).within (fun _ => .start j) fun w _ => .done w .none
  | .closeLeftOpen n => .done (w.setPool (w.pool.closeLeftOpen n)) .none
  | .sleep d => .next w (.asleep (deadlineAfter now d))
  | .asleep deadline => if deadline ≤ now then .done w .none else .blocked (some deadline)
  | .boot i b => bootStep now w i b
  | .request i method params => requestStep w i method params
  | .exchange i x =>
    (w.onPool (w.pool.onInstance i (x.step now))).within (.exchange i) fun w a =>
      .done w (.answered a)
  | .wait i x =>
    (w.onPool (Session.waitStep now w.pool i x)).within (.wait i) fun w r => .done w (.waited r)
  | .shutdown i s =>
    (w.onPool (w.pool.onInstance i (s.step (w.surroundings now).exited now))).within (.shutdown i)
      fun w _ => .done w .none
  | .opening o =>
    (w.onPool (o.step w.files now w.pool)).within .opening fun w r => .done w (.opened r)
  | .ensure e =>
    (w.onPool (e.step (w.surroundings now) w.pool)).within .ensure fun w r => .done w (.ensured r)
  | .execute outcomes x instances => executeStep now w outcomes x instances
  | .stop s =>
    (w.onPool (s.step (w.surroundings now) w.pool)).within .stop fun w n => .done w (.count n)
  | .validate v =>
    (w.onPool (v.step w.rules w.files (w.surroundings now) w.pool)).within .validate fun w r =>
      .done w (.validated v.file r)
  | .limited after op => .next w (.limitedUntil (deadlineAfter now after) op)
  | .limitedUntil deadline op =>
    ((op.step now w).within (.limitedUntil deadline) fun w r => .done w r).orAt now deadline
      (.done (cancelled now w op) .cancelled)
where
  /-- What is left of the world when an operation is given up. -/
  cancelled (now : Time) (w : World) : Op → World
    | .wait i x => w.modifyInstance i fun y => y.releaseWaiter x.waiter
    | .validate v => w.setPool (v.cancel w.pool)
    | .limitedUntil _ op => cancelled now w op
    | _ => w

end Op

namespace World

/-- The operations that a change of the world has brought into being: first the new backends, then
the two tasks of each new link, the new starts, and the documents left open. -/
def spawned (before after : World) : List Op :=
  let peers := (after.peers.drop before.peers.length).map fun e => Op.peer e.1
  let links := after.pool.instances.zipIdx.flatMap fun (x, i) =>
    let known := ((before.pool.instance? i).map (·.links.length)).getD 0
    (List.range' known (x.links.length - known)).flatMap fun k => [Op.writer i k, Op.reader i k]
  let starts := (List.range' before.pool.starts.length
    (after.pool.starts.length - before.pool.starts.length)).map Op.start
  let left := (List.range' before.pool.leftOpen.length
    (after.pool.leftOpen.length - before.pool.leftOpen.length)).map Op.closeLeftOpen
  peers ++ links ++ starts ++ left

/-- The steps of everything in a world. -/
def machine : Machine World Op Outcome where
  step := fun now w op => op.step now (w.atTime now)
  spawned := spawned
  cancel := Op.step.cancelled

end World

end DiagnosticBroker.Simulation
