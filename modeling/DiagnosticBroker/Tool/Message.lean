import DiagnosticBroker.Wire.Message
import DiagnosticBroker.Diagnostic

/-!
# Messages of the tool protocol

Requests and responses between the server and the agent that calls it, one JSON text per line. A
request without an id, or with the id null, is a notification.
-/

namespace DiagnosticBroker.Tool

open Json (Decoder Fields)
open Wire (Id)

/-- A request or notification. -/
structure Request where
  jsonrpc : String
  id : Option Id
  method : String
  params : Option Json

/-- The error that a response carries. -/
structure RpcError where
  code : Int
  message : String
  data : Option Json

/-- The answer to a request; the id is absent if it could not be read. -/
structure Response where
  jsonrpc : String
  id : Option Id
  result : Option Json
  error : Option RpcError

namespace Request

def decode : Decoder Request :=
  Fields.record "Request"
    (Request.mk <$> Fields.required "jsonrpc" Json.Decode.string <*>
      Fields.defaulted "id" (Json.Decode.option Id.decodeSigned) none <*>
      Fields.required "method" Json.Decode.string <*>
      Fields.defaulted "params" (Json.Decode.option Json.Decode.value) none)

def encode (r : Request) : Json :=
  .objOf [some ("jsonrpc", .str r.jsonrpc), r.id.map fun i => ("id", i.encode),
    some ("method", .str r.method), r.params.map fun j => ("params", j)]

def isNotification (r : Request) : Bool := r.id.isNone

end Request

namespace RpcError

def new (code : Int) (message : String) : RpcError := ⟨code, message, none⟩

/-- The line is not JSON. -/
def parseError : RpcError := new (-32700) "Parse error"

/-- The line is JSON but no request. -/
def invalidRequest : RpcError := new (-32600) "Invalid request"

def methodNotFound (method : String) : RpcError := new (-32601) s!"Method not found: {method}"

def invalidParams (text : String) : RpcError := new (-32602) s!"Invalid params: {text}"

def internalError (text : String) : RpcError := new (-32603) s!"Internal error: {text}"

def decode : Decoder RpcError :=
  Fields.record "RpcError"
    (RpcError.mk <$> Fields.required "code" Json.Decode.i32 <*>
      Fields.required "message" Json.Decode.string <*>
      Fields.optional "data" Json.Decode.value)

def encode (e : RpcError) : Json :=
  .objOf [some ("code", .int e.code), some ("message", .str e.message),
    e.data.map fun j => ("data", j)]

end RpcError

namespace Response

def success (id : Option Id) (result : Json) : Response := ⟨Wire.version, id, some result, none⟩

def failure (id : Option Id) (error : RpcError) : Response := ⟨Wire.version, id, none, some error⟩

def decode : Decoder Response :=
  Fields.record "Response"
    (Response.mk <$> Fields.required "jsonrpc" Json.Decode.string <*>
      Fields.optional "id" Id.decodeSigned <*>
      Fields.optional "result" Json.Decode.value <*>
      Fields.optional "error" RpcError.decode)

def encode (r : Response) : Json :=
  .objOf [some ("jsonrpc", .str r.jsonrpc),
    some ("id", match r.id with | some i => i.encode | none => .null),
    r.result.map fun j => ("result", j), r.error.map fun e => ("error", e.encode)]

end Response

/-! ## Calls of the tool -/

/-- The name of the one tool (`VALIDATE_TOOL`). -/
def validateName : String := "validate"

/-- The call of a tool. -/
structure Call where
  name : String
  arguments : Option Json

def Call.decode : Decoder Call :=
  Fields.record "ToolCallParams"
    (Call.mk <$> Fields.required "name" Json.Decode.string <*>
      Fields.defaulted "arguments" (Json.Decode.option Json.Decode.value) none)

/-- The file that a call of the tool names. -/
def decodeFilePath : Decoder String :=
  Fields.record "ValidateArgs" (Fields.required "file_path" Json.Decode.string)

/-- The description of the tool (`validate_tool`). -/
def description : Json :=
  .obj [("name", .str validateName),
    ("description", .str ("Validate a file with the language server registered for its " ++
      "extension and return the reported diagnostics")),
    ("inputSchema", .obj [("type", .str "object"),
      ("properties", .obj [("file_path", .obj [("type", .str "string"),
        ("description", .str "Absolute path of the file to validate")])]),
      ("required", .arr [.str "file_path"])])]

end DiagnosticBroker.Tool
