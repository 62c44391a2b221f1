import DiagnosticBroker.Instance.Basic

/-!
# Requests and their answers

A request (`request`) is given a number, registered, and queued. It then waits for its answer, for as
long as its method is given; when that time is up the backend is told to forget the request
(`cancel_request`), and counts as degraded.
-/

namespace DiagnosticBroker.Instance

/-- How far a request is. -/
inductive Exchange.Phase where
  /-- It has its number and is about to be registered and queued. -/
  | register
  /-- It could not be queued and is about to be forgotten. -/
  | unregister (fault : Fault)
  | waiting (deadline : Time)
  /-- Its time is up and it is about to be forgotten. -/
  | giveUp

/-- A request that was sent, or is about to be. -/
structure Exchange where
  id : Nat
  method : String
  params : Option Json
  phase : Exchange.Phase := .register

/-- The result of a request. -/
abbrev Answer := Except Fault Json

namespace Exchange

/-- Begins a request; only a backend that is alive is given one (`request`, up to where it waits for
the table of pending requests). -/
def start (i : Instance) (method : String) (params : Option Json) :
    Instance × Except Fault Exchange :=
  match i.lifecycle with
  | .notStarted => (i, .error .notConnected)
  | .degraded => (i, .error i.gone)
  | .terminated => (i, .error i.gone)
  | _ =>
    ({ i with nextId := i.nextId + 1 },
      .ok { id := i.nextId, method := method, params := params })

/-- The result that a response means (`into_result`, and the reading of its errors). -/
def resultOf (i : Instance) (r : Wire.Response) : Answer :=
  match r.outcome with
  | .ok j => .ok j
  | .error e => if e.code = Wire.ResponseError.streamLostCode then .error i.gone else .error e.fault

/-- The fault of a request whose time is up. -/
def timedOut (i : Instance) (method : String) : Fault :=
  .timedOut s!"{i.commandText} '{method}' timed out. The backend may be busy or unresponsive"

/-- The request no longer waits for an answer. -/
def forget (i : Instance) (id : Nat) : Instance := { i with pending := i.pending.erase id }

/-- One step of a request, from one await of `request` to the next. -/
def step (now : Time) (i : Instance) (x : Exchange) : Step Instance Exchange Answer :=
  match x.phase with
  | .register =>
    let (i, sent) :=
      { i with pending := i.pending ++ [x.id] }.send (.request (.new x.id x.method x.params))
    match sent with
    | .ok () =>
      .next i { x with phase := .waiting (deadlineAfter now (i.budget.timeoutFor x.method)) }
    | .error f => .next i { x with phase := .unregister f }
  | .unregister f => .done (forget i x.id) (.error f)
  | .waiting deadline =>
    match i.answers.lookup x.id with
    | some r => .done { i with answers := i.answers.filter fun e => e.1 ≠ x.id } (resultOf i r)
    | none =>
      if deadline ≤ now then .next i { x with phase := .giveUp } else .blocked (some deadline)
  | .giveUp =>
    let i := forget i x.id
    let (i, _) := i.notify "$/cancelRequest" (some (.obj [("id", .nat x.id)]))
    .done i.markDegraded (.error (timedOut i x.method))

end Exchange

end DiagnosticBroker.Instance
