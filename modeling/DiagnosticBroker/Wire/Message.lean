import DiagnosticBroker.Fault
import DiagnosticBroker.Json.Reader

/-!
# Messages between client and backend

Requests, notifications and responses, their encoding, and how a JSON value is told to be one of
them: with an id and a method it is a request, with an id alone a response, with a method alone a
notification. Members that are null count as absent where they may be absent.
-/

namespace DiagnosticBroker.Wire

open Json (Decoder DecodeError Fields)

/-- The version of the protocol that every message names. -/
def version : String := "2.0"

/-- The name of a request, by which its response is found. -/
inductive Id where
  | number (value : Int)
  | text (value : String)
deriving DecidableEq, Repr

namespace Id

/-- A number between the bounds, or any string. -/
def decodeWithin (low high : Int) : Decoder Id
  | .num (.int i) =>
    if low ≤ i && i ≤ high then .ok (number i) else .error (.noAlternative "RequestId")
  | .str s => .ok (text s)
  | j => .error (if j.inRange then .noAlternative "RequestId" else .unreadable)

/-- An id of a message to or from a backend: a natural number of 64 bits, or a string. -/
def decode : Decoder Id := decodeWithin 0 Word.maxU64

/-- An id of a message of the tool protocol: an integer of 64 bits, or a string. -/
def decodeSigned : Decoder Id := decodeWithin Word.minI64 Word.maxI64

def encode : Id → Json
  | number i => .int i
  | text s => .str s

end Id

/-- A request. -/
structure Request where
  jsonrpc : String
  id : Id
  method : String
  params : Option Json

/-- A message that asks for no answer. -/
structure Notification where
  jsonrpc : String
  method : String
  params : Option Json

/-- The error that a response carries. -/
structure ResponseError where
  code : Int
  message : String
  data : Option Json

/-- The answer to a request. -/
structure Response where
  jsonrpc : String
  id : Option Id
  result : Option Json
  error : Option ResponseError

/-- Any message. -/
inductive Message where
  | request (request : Request)
  | notification (notification : Notification)
  | response (response : Response)

/-! ## Building messages -/

def Request.new (id : Nat) (method : String) (params : Option Json) : Request :=
  ⟨version, .number id, method, params⟩

def Notification.new (method : String) (params : Option Json) : Notification :=
  ⟨version, method, params⟩

namespace ResponseError

def new (code : Int) (message : String) : ResponseError := ⟨code, message, none⟩

/-- No such method. -/
def methodNotFoundCode : Int := -32601

/-- The stream was lost while a request waited. Never sent. -/
def streamLostCode : Int := -32099

/-- The wording of an error answer. -/
def text (e : ResponseError) : String := s!"[{e.code}] {e.message}"

/-- The fault that an error answer means for the request. -/
def fault (e : ResponseError) : Fault := Fault.ofAnswer e.code e.message

end ResponseError

namespace Response

def success (id : Id) (result : Json) : Response := ⟨version, some id, some result, none⟩

def failure (id : Option Id) (error : ResponseError) : Response := ⟨version, id, none, some error⟩

def isSuccess (r : Response) : Bool := r.error.isNone

/-- The outcome that a response reports; without an error and a result it is null. -/
def outcome (r : Response) : Except ResponseError Json :=
  match r.error with
  | some e => .error e
  | none => .ok (r.result.getD .null)

end Response

/-! ## Encoding and decoding -/

def Request.decode : Decoder Request :=
  Fields.record "Request"
    (Request.mk <$> Fields.required "jsonrpc" Json.Decode.string <*>
      Fields.required "id" Id.decode <*>
      Fields.required "method" Json.Decode.string <*>
      Fields.optional "params" Json.Decode.value)

def Request.encode (r : Request) : Json :=
  .objOf [some ("jsonrpc", .str r.jsonrpc), some ("id", r.id.encode),
    some ("method", .str r.method), r.params.map fun j => ("params", j)]

def Notification.decode : Decoder Notification :=
  Fields.record "Notification"
    (Notification.mk <$> Fields.required "jsonrpc" Json.Decode.string <*>
      Fields.required "method" Json.Decode.string <*>
      Fields.optional "params" Json.Decode.value)

def Notification.encode (n : Notification) : Json :=
  .objOf [some ("jsonrpc", .str n.jsonrpc), some ("method", .str n.method),
    n.params.map fun j => ("params", j)]

def ResponseError.decode : Decoder ResponseError :=
  Fields.record "ResponseError"
    (ResponseError.mk <$> Fields.required "code" Json.Decode.i32 <*>
      Fields.required "message" Json.Decode.string <*>
      Fields.optional "data" Json.Decode.value)

def ResponseError.encode (e : ResponseError) : Json :=
  .objOf [some ("code", .int e.code), some ("message", .str e.message),
    e.data.map fun j => ("data", j)]

def Response.decode : Decoder Response :=
  Fields.record "Response"
    (Response.mk <$> Fields.required "jsonrpc" Json.Decode.string <*>
      Fields.optional "id" Id.decode <*>
      Fields.optional "result" Json.Decode.value <*>
      Fields.optional "error" ResponseError.decode)

def Response.encode (r : Response) : Json :=
  .objOf [some ("jsonrpc", .str r.jsonrpc),
    some ("id", match r.id with | some i => i.encode | none => .null),
    r.result.map fun j => ("result", j), r.error.map fun e => ("error", e.encode)]

namespace Message

def encode : Message → Json
  | request r => r.encode
  | notification n => n.encode
  | response r => r.encode

/-- Tells which kind of message a value is, and decodes it as such. -/
def decode (j : Json) : Except DecodeError Message :=
  match (j.get? "id").isSome, (j.get? "method").isSome with
  | true, true => (Request.decode j).map request
  | true, false => (Response.decode j).map response
  | false, true => (Notification.decode j).map notification
  | false, false => .error .notAMessage

end Message

/-- Why a text is no message. -/
inductive ParseFault where
  | notJson
  | misshapen (error : DecodeError)
deriving DecidableEq, Repr

/-- Reads a text as a message. -/
def Message.parse (cs : List Char) : Except ParseFault Message :=
  match Json.read? cs with
  | none => .error .notJson
  | some j => (decode j).mapError .misshapen

end DiagnosticBroker.Wire
