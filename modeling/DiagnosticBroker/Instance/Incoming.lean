import DiagnosticBroker.Instance.Basic

/-!
# What a backend says

How an instance takes in what the reader of a link has read: a response is handed to its request, a
request is answered at once, a publish goes to the collector, and log lines are passed on. When the
stream is lost, every request that waits is failed and every subscription ended. The same happens
when a frame cannot be written.
-/

namespace DiagnosticBroker.Instance

/-! ## Requests of the backend -/

/-- One empty settings object for each item that is asked for (`workspace_configuration`). -/
def settingsFor (params : Option Json) : Json :=
  let items := ((params.bind (Json.get? "items")).bind Json.items?).getD []
  .arr (items.map fun _ => .obj [])

/-- The folders that the backend works in, as the answer to its question. -/
def foldersAnswer (i : Instance) : Json :=
  .arr (i.roots.map fun root =>
    .obj [("name", match Path.fileName? root with | some n => .str n | none => .null),
      ("uri", .str (Uri.ofPath i.collector.directory root))])

/-- The requests that are granted without doing anything. -/
def acknowledged : List String :=
  ["client/registerCapability", "client/unregisterCapability", "window/workDoneProgress/create"]

/-- The answer to a request of the backend (`handle_server_request`). -/
def answerTo (i : Instance) (r : Wire.Request) : Wire.Response :=
  if r.method = "workspace/configuration" then .success r.id (settingsFor r.params)
  else if r.method = "workspace/workspaceFolders" then .success r.id i.foldersAnswer
  else if r.method ∈ acknowledged then .success r.id .null
  else
    .failure (some r.id)
      (.new Wire.ResponseError.methodNotFoundCode s!"Method not found: {r.method}")

/-! ## Notifications of the backend -/

/-- The version that the parameters of a publish name, if it is one. -/
def publishedVersion (params : Json) : Option Int :=
  match params.get? "version" with
  | some (.num (.int v)) => if Word.minI32 ≤ v && v ≤ Word.maxI32 then some v else none
  | _ => none

/-- Takes in the parameters of a publish (`handle_notification`). If they cannot be decoded, those
who wait for the document that they name are told. -/
def takePublish (i : Instance) (now : Time) (params : Json) : Instance :=
  match Wire.Publish.decode params with
  | .ok p => { i with collector := i.collector.publish now p }
  | .error e =>
    match (params.get? "uri").bind Json.str? with
    | some uri =>
      { i with collector := (i.collector.reject uri (publishedVersion params) e.message).1 }
    | none => i

/-- Takes in a line for the log. -/
def takeLogLine (i : Instance) (params : Json) : Instance :=
  match Wire.LogLine.decode params with
  | .ok l => { i with log := i.log ++ [l] }
  | .error _ => i

/-- Takes in a notification (`handle_notification`). -/
def takeNotification (i : Instance) (now : Time) (n : Wire.Notification) : Instance :=
  let params := n.params.getD .null
  if n.method = Wire.Publish.method then i.takePublish now params
  else if n.method = "window/logMessage" || n.method = "window/showMessage" then
    i.takeLogLine params
  else i

/-! ## The reader of a link -/

def setReader (i : Instance) (k : Nat) (r : Reading) : Instance :=
  i.modifyLink k fun l => { l with reader := r }

/-- Takes in a message that was read on a link (`handle_message`). -/
def receive (i : Instance) (now : Time) (k : Nat) : Wire.Message → Instance
  | .request r => (i.send (.response (i.answerTo r))).1
  | .notification n => i.takeNotification now n
  | .response r =>
    match r.id with
    | some id => i.setReader k (.delivering id r)
    | none => i

/-- The error by which requests are failed whose backend is gone. -/
def lostError (text : String) : Wire.ResponseError := .new Wire.ResponseError.streamLostCode text

/-- The reader of a link has come to the end of the stream, or to something unreadable
(`on_stream_lost`, up to `fail_pending`). -/
def loseStream (i : Instance) (k : Nat) : Instance :=
  if i.lifecycle = .terminated then i.setReader k .ended
  else i.markDegraded.setReader k .losing

/-- The requests that wait are failed and the subscriptions ended, because the backend is gone
(`fail_pending` and `disconnect`, at the end of `on_stream_lost` and `on_write_failed`). -/
def abandon (i : Instance) (text : String) : Instance :=
  let i := i.failPending (lostError text)
  { i with collector := i.collector.disconnect }

/-- Goes on with what the reader of a link is doing, which is more than reading (`read_loop`). -/
def readerStep (i : Instance) (k : Nat) : Reading → Instance
  | .delivering id r => (i.deliver id r).setReader k .idle
  | .losing => (i.abandon "Backend terminated unexpectedly").setReader k .ended
  | .idle => i
  | .ended => i

/-! ## The writer of a link -/

def setWriter (i : Instance) (k : Nat) (w : Writing) : Instance :=
  i.modifyLink k fun l => { l with writer := w }

/-- The writer of a link could not deliver a frame (`on_write_failed`, up to `fail_pending`). -/
def failWriter (i : Instance) (k : Nat) : Instance :=
  if i.lifecycle = .terminated then i.setWriter k .ended
  else i.markDegraded.setWriter k .failing

/-- The requests that wait are failed, because the backend does not read any more. -/
def failFrames (i : Instance) (k : Nat) : Instance :=
  (i.abandon "Backend stopped reading its input").setWriter k .ended

/-- The frame that the writer of a link takes next. -/
def nextFrame? (l : Link) : Option Wire.Message := l.frames[l.taken]?

/-- Lets the writer of a link take a frame (`write_loop`). -/
def takeFrame (i : Instance) (k : Nat) (m : Wire.Message) : Instance :=
  i.modifyLink k fun l => { l with taken := l.taken + 1, writer := .frame m (Wire.Frame.size m) }

end DiagnosticBroker.Instance
