import DiagnosticBroker.Budget
import DiagnosticBroker.Json.Reader
import DiagnosticBroker.Text.Blank
import DiagnosticBroker.Text.Utf8
import DiagnosticBroker.Tool.Message

/-!
# Lines of the tool protocol

How bytes are cut into lines, and what a line asks for: nothing, an answer that is known at once, or
the check of a file. A check that takes too long is answered from its line alone.
-/

namespace DiagnosticBroker.Tool

/-! ## Lines -/

/-- A line without its line end, which may have a carriage return. -/
def chompLine (line : List UInt8) : List UInt8 :=
  match line.reverse with
  | 10 :: 13 :: rest => rest.reverse
  | 10 :: rest => rest.reverse
  | _ => line

/-- What the front of the input holds. -/
inductive Incoming where
  /-- No whole line has arrived. -/
  | waiting
  /-- A line, and the bytes after it. -/
  | line (text : String) (rest : List UInt8)
  /-- A line that is not text. -/
  | unreadable
  | ended

/-- Takes the first line; `closed` tells that no more bytes will follow, so that the last line needs
no line end. -/
def Incoming.next (closed : Bool) (bytes : List UInt8) : Incoming :=
  match bytes.span (· ≠ 10) with
  | ([], []) => if closed then ended else waiting
  | (front, []) => if closed then text front [] else waiting
  | (front, e :: rest) => text (front ++ [e]) rest
where
  /-- The line that some bytes make up. -/
  text (bytes rest : List UInt8) : Incoming :=
    match Utf8.decode (chompLine bytes) with
    | .ok cs => .line (String.ofList cs) rest
    | .error _ => unreadable

/-- Whether a line holds nothing. -/
def isBlankLine (line : String) : Bool := (Text.trim line.toList).isEmpty

/-! ## Requests -/

/-- What a line asks for. -/
inductive Demand where
  | nothing
  | answer (response : Response)
  /-- The check of a file, to be answered under an id. -/
  | check (id : Option Wire.Id) (file : String)

/-- The version of the protocol that is spoken if the client names none
(`DEFAULT_PROTOCOL_VERSION`). -/
def defaultProtocolVersion : String := "2024-11-05"

/-- How the server introduces itself (`handle_initialize`). -/
def introduction (params : Json) : Json :=
  let version := ((params.get? "protocolVersion").bind Json.str?).getD defaultProtocolVersion
  .obj [("protocolVersion", .str version),
    ("capabilities", .obj [("tools", .obj [("listChanged", .bool false)])]),
    ("serverInfo", .obj [("name", .str "langcheck"), ("version", .str "0.1.0")])]

/-- The file that a call asks to check, or what is wrong with the call (`handle_tool_call`). -/
def calledFile (params : Json) : Except RpcError String :=
  match Call.decode params with
  | .error e => .error (.invalidParams e.message)
  | .ok call =>
    if call.name ≠ validateName then .error (.invalidParams s!"Unknown tool: {call.name}")
    else
      match call.arguments with
      | none => .error (.invalidParams "missing arguments")
      | some a => (decodeFilePath a).mapError fun e => .invalidParams e.message

/-- The methods that are answered. -/
inductive Method where
  | handshake
  | ping
  | listTools
  | callTool

namespace Method

def name : Method → String
  | handshake => "initialize"
  | ping => "ping"
  | listTools => "tools/list"
  | callTool => "tools/call"

def all : List Method := [handshake, ping, listTools, callTool]

def ofName? (s : String) : Option Method := all.find? fun m => m.name = s

end Method

namespace Demand

/-- What a request asks for that is no notification (`dispatch`). -/
def ofRequest (r : Request) : Demand :=
  let params := r.params.getD (.obj [])
  match Method.ofName? r.method with
  | some .handshake => answer (.success r.id (introduction params))
  | some .ping => answer (.success r.id (.obj []))
  | some .listTools => answer (.success r.id (.obj [("tools", .arr [description])]))
  | some .callTool =>
    match calledFile params with
    | .ok file => check r.id file
    | .error e => answer (.failure r.id e)
  | none => answer (.failure r.id (.methodNotFound r.method))

/-- What a line asks for (`process_line`). -/
def ofLine (line : String) : Demand :=
  match Json.read? line.toList with
  | none => answer (.failure none .parseError)
  | some j =>
    match Request.decode j with
    | .error _ => answer (.failure none .invalidRequest)
    | .ok r => if r.isNotification then nothing else ofRequest r

end Demand

/-! ## Time limits -/

/-- The file that a call names in the plain form of its parameters. -/
def namedFile? (r : Request) : Option String :=
  if r.method = Method.callTool.name then
    ((r.params.bind (Json.get? "arguments")).bind (Json.get? "file_path")).bind Json.str?
  else none

/-- The answer to a line that was not done with in time (`timed_out`). The line is decoded as it was
written, so one that repeats a member is not answered. -/
def overdue? (line : String) (limit : Duration) : Option Response :=
  match Json.readDocument? line.toList with
  | none => none
  | some document =>
    match Request.decode document with
    | .error _ => none
    | .ok r =>
      if r.isNotification then none
      else
        match namedFile? r with
        | none => some (.failure r.id (.internalError "Request timed out"))
        | some file =>
          let report := Report.failure file s!"Validation did not finish within {limit.text}"
          some (.success r.id report.toolResult)

end DiagnosticBroker.Tool
