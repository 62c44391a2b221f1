import DiagnosticBroker.Json.Lenient
import DiagnosticBroker.Simulation.Script

/-!
# Written scripts

How the scripts of simulated backends are written as JSON, and how what the backends have seen is
written down. How a fault is written is up to whoever reads the scripts.
-/

namespace DiagnosticBroker.Simulation

open Json.Lenient

/-! ## Reading scripts -/

/-- The version that a publish names: a word stands for the one of the document. -/
def PublishedVersion.ofJson : Json → PublishedVersion
  | .str "same" => same
  | j => value j

/-- An action; one that is not known closes the stream. -/
def Action.ofJson (j : Json) : Action :=
  match str j "do" with
  | "reply" => reply (value j "result") (j.get? "id") (flag j "string_id")
  | "reply_error" => replyError (value j "error") (j.get? "id") (flag j "string_id")
  | "publish" =>
    publish (value j "diagnostics") (j.get? "uri") ((j.get? "version").map .ofJson)
  | "send" => send (value j "message")
  | "raw" => raw (content j).toList
  | "sleep" => sleep (.ofMillis (nat j "ms"))
  | _ => close

/-- A script; `fault` reads the reason why a launch fails. -/
def Script.ofJson (fault : Json → Fault) (j : Json) : Script where
  launchDelay := duration j "launch_delay"
  failure := (j.get? "fail").map fault
  crashes := flag j "panic"
  rules := (members j "rules").map fun (method, occurrences) =>
    (method, (occurrences.items?.getD []).map fun actions =>
      (actions.items?.getD []).map Action.ofJson)

/-! ## Writing events -/

/-- The longest document text that is written out, in bytes. -/
def longestText : Nat := 200

/-- A member with the text of a document, which is cut down to its size if it is long. -/
def shortenMember : String × Json → String × Json
  | ("text", .str t) =>
    ("text", .str (if longestText < t.utf8ByteSize then s!"<{t.utf8ByteSize} bytes>" else t))
  | m => m

/-- The parameters of a message without the texts of long documents. -/
def shorten : Json → Json
  | .obj ms => .obj (ms.map fun (n, v) =>
      match n, v with
      | "textDocument", .obj ds => (n, .obj (ds.map shortenMember))
      | "contentChanges", .arr cs => (n, .arr (cs.map fun c =>
          match c with
          | .obj ds => .obj (ds.map shortenMember)
          | c => c))
      | n, v => (n, v))
  | j => j

/-- The parameters of a message as they are written down; those of the handshake only if asked
for. -/
def describeParams (withHandshake : Bool) (method : String) (params : Option Json) : Json :=
  if method = "initialize" && !withHandshake then .str "omitted"
  else
    match params with
    | none => .str "none"
    | some p => shorten p

/-- An event as it is written down. -/
def Event.encode (withHandshake : Bool) : Event → Json
  | launched c d =>
    .arr [.str "launch", .arr (c.map .str), match d with | some d => .str d | none => .null]
  | request r =>
    .arr [.str "request", r.id.encode, .str r.method,
      describeParams withHandshake r.method r.params]
  | notification n =>
    .arr [.str "notification", .str n.method, describeParams withHandshake n.method n.params]
  | response r => .arr [.str "response", r.encode]
  | closed => .arr [.str "closed"]
  | ended => .arr [.str "eof"]
  | writeFailed => .arr [.str "write failed"]

/-- Events with the number of their launch, as they are written down. -/
def encodeEvents (withHandshake : Bool) (events : List (Nat × Event)) : Json :=
  .arr (events.map fun (l, e) => .arr [.nat l, e.encode withHandshake])

end DiagnosticBroker.Simulation
