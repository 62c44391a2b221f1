import DiagnosticBroker.Proofs.Json.Values
import DiagnosticBroker.Proofs.Wire.Messages

/-!
# Messages as the protocol defines them

A message is told by its members: `jsonrpc` and `method` are strings, an id is an integer of 32 bits
or a string, or null in a response, an error is an object with a code of 32 bits and a text, and all
other values are arbitrary. Further members do no harm, unless they are an id or a method, which
make it a message of another kind. Such a message is accepted with what it says, unless its id is
negative: ids are natural numbers here.

Results:
* `decode_request_legal`, `decode_notification_legal`, `decode_response_legal`: each kind of message.
* `parse_legal`: of the messages as the protocol defines them, exactly those with a negative id are
  rejected, and all others are read with what they say.
-/

namespace DiagnosticBroker

namespace Wire

open Json (Fields)

/-! ## The members of a message -/

/-- An id as the protocol has it: an integer of 32 bits, or a string. -/
def Id.Legal : Id → Prop
  | number i => Word.minI32 ≤ i ∧ i ≤ Word.maxI32
  | text _ => True

def Id.Negative : Id → Prop
  | number i => i < 0
  | text _ => False

/-- What the protocol calls a request. -/
structure Request.Legal (ms : List (String × Json)) (r : Request) : Prop where
  jsonrpc : ms.lookup "jsonrpc" = some (.str r.jsonrpc)
  id : ms.lookup "id" = some r.id.encode
  idLegal : r.id.Legal
  method : ms.lookup "method" = some (.str r.method)
  params : r.params = Message.present (ms.lookup "params")

/-- What the protocol calls a notification. -/
structure Notification.Legal (ms : List (String × Json)) (n : Notification) : Prop where
  jsonrpc : ms.lookup "jsonrpc" = some (.str n.jsonrpc)
  noId : ms.lookup "id" = none
  method : ms.lookup "method" = some (.str n.method)
  params : n.params = Message.present (ms.lookup "params")

/-- What the protocol calls an error. -/
structure ResponseError.Legal (ms : List (String × Json)) (e : ResponseError) : Prop where
  code : ms.lookup "code" = some (.int e.code)
  codeLegal : Word.minI32 ≤ e.code ∧ e.code ≤ Word.maxI32
  message : ms.lookup "message" = some (.str e.message)
  data : e.data = Message.present (ms.lookup "data")

/-- What the protocol calls a response. Its id is null if the request had none that could be told. -/
structure Response.Legal (ms : List (String × Json)) (r : Response) : Prop where
  jsonrpc : ms.lookup "jsonrpc" = some (.str r.jsonrpc)
  id : ms.lookup "id" = some ((r.id.map Id.encode).getD .null)
  idLegal : ∀ i ∈ r.id, i.Legal
  noMethod : ms.lookup "method" = none
  result : r.result = Message.present (ms.lookup "result")
  error : match r.error with
    | none => Message.present (ms.lookup "error") = none
    | some e => ∃ es, ms.lookup "error" = some (.obj es) ∧ e.Legal es

/-- The members are those of the message as the protocol has it, and others that do no harm. -/
def Message.Legal (ms : List (String × Json)) : Message → Prop
  | request r => r.Legal ms
  | notification n => n.Legal ms
  | response r => r.Legal ms

/-- A message with an id that is a negative number. -/
def Message.NegativeId (m : Message) : Prop := ∃ i ∈ m.id?, i.Negative

/-! ## Ids -/

section

variable {ms es : List (String × Json)} {i : Id}

theorem decode_legal_id (h : i.Legal) (hn : ¬i.Negative) : Id.decode i.encode = .ok i := by
  refine decode_encode_id ?_
  cases i with
  | text s => trivial
  | number n => exact ⟨not_lt.mp hn, Int.le_trans h.2 (by decide)⟩

/-- The fault of a negative id. -/
def idFault : Json.DecodeError := .noAlternative "RequestId"

theorem decode_negative_id (h : i.Negative) : Id.decode i.encode = .error idFault := by
  cases i with
  | text s => cases h
  | number n =>
    have hn : ¬0 ≤ n := not_le.mpr h
    simp [Id.decode, Id.decodeWithin, Id.encode, Json.int, hn, idFault]

/-- An id is not null. -/
theorem option_id {α : Type} {d : Json.Decoder α} :
    Json.Decode.option d i.encode = (d i.encode).map some := by
  cases i <;> rfl

/-! ## Decoding -/

/-- A value that may be left out is what the member says, and nothing if that is null. -/
theorem run_present (hms : (Json.obj ms).IsValue) {record key : String} {start : Nat} :
    (Fields.optional key Json.Decode.value).run record start (.members ms) =
      .ok (Message.present (ms.lookup key)) := by
  cases hj : ms.lookup key with
  | none => exact Fields.run_missing hms hj
  | some j => exact Fields.run_member hms hj (decode_value (hms.field (k := ⟨0, key⟩) hj))

theorem decode_request_legal (hms : (Json.obj ms).IsValue) {r : Request} (h : r.Legal ms)
    (hn : ¬r.id.Negative) : Request.decode (.obj ms) = .ok r := by
  obtain ⟨version, i, method, params⟩ := r
  obtain ⟨hversion, hid, hlegal, hmethod, hparams⟩ := h
  obtain rfl : params = _ := hparams
  exact Fields.record_eq_of_run hms.endsWhole (Fields.run_seq_eq (Fields.run_seq_eq
    (Fields.run_seq_eq (Fields.run_map_eq (Fields.run_member hms hversion rfl))
      (Fields.run_member hms hid (decode_legal_id hlegal hn)))
    (Fields.run_member hms hmethod rfl)) (run_present hms))

theorem decode_request_negative (hms : (Json.obj ms).IsValue) {r : Request} (h : r.Legal ms)
    (hn : r.id.Negative) : Request.decode (.obj ms) = .error idFault := by
  obtain ⟨place, hid⟩ := Fields.run_member_failed hms h.id (decode_negative_id hn)
  exact Fields.record_eq_error hms
    (Fields.run_seq_failed (Fields.run_seq_failed (Fields.run_seq_last
      (Fields.run_map_eq (Fields.run_member hms h.jsonrpc rfl)) hid)
      (Fields.run_member hms h.method rfl)) (run_present hms))

theorem decode_notification_legal (hms : (Json.obj ms).IsValue) {n : Notification}
    (h : n.Legal ms) : Notification.decode (.obj ms) = .ok n := by
  obtain ⟨version, method, params⟩ := n
  obtain ⟨hversion, -, hmethod, hparams⟩ := h
  obtain rfl : params = _ := hparams
  exact Fields.record_eq_of_run hms.endsWhole (Fields.run_seq_eq (Fields.run_seq_eq
    (Fields.run_map_eq (Fields.run_member hms hversion rfl)) (Fields.run_member hms hmethod rfl))
    (run_present hms))

theorem decode_error_legal (hes : (Json.obj es).IsValue) {e : ResponseError} (h : e.Legal es) :
    ResponseError.decode (.obj es) = .ok e := by
  obtain ⟨code, message, data⟩ := e
  obtain ⟨hcode, hbounds, hmessage, hdata⟩ := h
  obtain rfl : data = _ := hdata
  have hi32 : Json.Decode.i32 (.int code) = .ok code := by
    simp only [Json.Decode.i32, Json.Decode.integer, Json.int]
    rw [if_pos (by simpa using hbounds)]
  exact Fields.record_eq_of_run hes.endsWhole (Fields.run_seq_eq (Fields.run_seq_eq
    (Fields.run_map_eq (Fields.run_member hes hcode hi32)) (Fields.run_member hes hmessage rfl))
    (run_present hes))

/-- The error of a response, which is absent if the member is missing or null. -/
theorem run_error_legal (hms : (Json.obj ms).IsValue) {r : Response} (h : r.Legal ms)
    {record : String} {start : Nat} :
    (Fields.optional "error" ResponseError.decode).run record start (.members ms) =
      .ok r.error := by
  have herror := h.error
  cases he : r.error with
  | some e =>
    rw [he] at herror
    obtain ⟨es, hes, hlegal⟩ := herror
    exact Fields.run_member hms hes
      (Json.option_of_ne_null nofun (decode_error_legal (hms.field (k := ⟨0, "error"⟩) hes) hlegal))
  | none =>
    rw [he] at herror
    cases hj : ms.lookup "error" with
    | none => exact Fields.run_missing hms hj
    | some j =>
      rw [hj] at herror
      have hnull : j = .null := by
        cases j with
        | null => rfl
        | _ => cases herror
      subst hnull
      exact Fields.run_member hms hj rfl

theorem decode_response_legal (hms : (Json.obj ms).IsValue) {r : Response} (h : r.Legal ms)
    (hn : ∀ i ∈ r.id, ¬i.Negative) : Response.decode (.obj ms) = .ok r := by
  have herror := @run_error_legal ms hms r h (Fields.recordText "Response" 4) 3
  obtain ⟨version, i?, result, error⟩ := r
  obtain ⟨hversion, hid, hlegal, -, hresult, -⟩ := h
  obtain rfl : result = _ := hresult
  have hid? : Json.Decode.option Id.decode ((i?.map Id.encode).getD .null) = .ok i? := by
    cases i? with
    | none => rfl
    | some i =>
      rw [Option.map_some, Option.getD_some, option_id,
        decode_legal_id (hlegal i rfl) (hn i rfl)]
      rfl
  exact Fields.record_eq_of_run hms.endsWhole (Fields.run_seq_eq (Fields.run_seq_eq
    (Fields.run_seq_eq (Fields.run_map_eq (Fields.run_member hms hversion rfl))
      (Fields.run_member hms hid hid?)) (run_present hms)) herror)

theorem decode_response_negative (hms : (Json.obj ms).IsValue) {r : Response} (h : r.Legal ms)
    (hi : r.id = some i) (hn : i.Negative) : Response.decode (.obj ms) = .error idFault := by
  have hmember := h.id
  rw [hi] at hmember
  have hid? : Json.Decode.option Id.decode i.encode = .error idFault := by
    rw [option_id, decode_negative_id hn]
    rfl
  obtain ⟨place, hid⟩ := Fields.run_member_failed hms hmember hid?
  exact Fields.record_eq_error hms
    (Fields.run_seq_failed (Fields.run_seq_failed (Fields.run_seq_last
      (Fields.run_map_eq (Fields.run_member hms h.jsonrpc rfl)) hid)
      (run_present hms)) (run_error_legal hms h))

/-! ## Messages -/

variable {m : Message}

theorem decode_legal (hms : (Json.obj ms).IsValue) (h : m.Legal ms) (hn : ¬m.NegativeId) :
    Message.decode (.obj ms) = .ok m := by
  have hid : ∀ i ∈ m.id?, ¬i.Negative := fun i hi hneg => hn ⟨i, hi, hneg⟩
  cases m with
  | request r =>
    have h : r.Legal ms := h
    simp only [Message.decode, Json.get?, h.id, h.method, Option.isSome_some,
      decode_request_legal hms h (hid _ rfl)]
    rfl
  | notification n =>
    have h : n.Legal ms := h
    simp only [Message.decode, Json.get?, h.noId, h.method, Option.isSome_some, Option.isSome_none,
      decode_notification_legal hms h]
    rfl
  | response r =>
    have h : r.Legal ms := h
    simp only [Message.decode, Json.get?, h.id, h.noMethod, Option.isSome_some,
      Option.isSome_none, decode_response_legal hms h hid]
    rfl

theorem decode_negative (hms : (Json.obj ms).IsValue) (h : m.Legal ms) (hn : m.NegativeId) :
    Message.decode (.obj ms) = .error idFault := by
  obtain ⟨i, hi, hneg⟩ := hn
  cases m with
  | request r =>
    have h : r.Legal ms := h
    obtain rfl : r.id = i := Option.some.inj hi
    simp only [Message.decode, Json.get?, h.id, h.method, Option.isSome_some,
      decode_request_negative hms h hneg]
    rfl
  | notification n => cases hi
  | response r =>
    have h : r.Legal ms := h
    simp only [Message.decode, Json.get?, h.id, h.noMethod, Option.isSome_some,
      Option.isSome_none, decode_response_negative hms h hi hneg]
    rfl

/-- **Legal messages.** A text of an object that is a message as the protocol has it is read as that
message, if the id is not negative; a negative id is the only reason for which one is rejected. Each
object that is nested no deeper than allowed and whose doubles are read back has such a text. -/
theorem parse_legal (h : m.Legal ms) :
    (∀ cs, Json.read? cs = some (.obj ms) →
      (¬m.NegativeId → Message.parse cs = .ok m) ∧
      (m.NegativeId → Message.parse cs = .error (.misshapen idFault))) ∧
    ((Json.obj ms).IsValue → (Json.obj ms).nesting ≤ Json.maxDepth →
      (∀ x, .float x ∈ (Json.obj ms).numbers → (Json.Number.float x).Rereads) →
      Json.read? (Json.obj ms).write = some (.obj ms)) := by
  constructor
  · intro cs hread
    have hms := (Json.sound_of_read? hread).2
    simp only [Message.parse, hread]
    exact ⟨fun hn => by rw [decode_legal hms h hn]; rfl,
      fun hn => by rw [decode_negative hms h hn]; rfl⟩
  · intro hms hnest hdoubles
    rw [Json.read?_write hnest (fun n hn => (hms.numbers n hn).rereads fun x hx =>
      hx ▸ hdoubles x (hx ▸ hn)) (Json.inRange_of_numbers hms.numbers), hms.canonical]

end

/-- The members of a request whose id is a negative number. -/
def belowZero : List (String × Json) :=
  [("id", .int (-1)), ("jsonrpc", .str "2.0"), ("method", .str "workspace/configuration")]

/-- The members of a response without an id, with nulls, and with a member that is not known. -/
def unnamed : List (String × Json) :=
  [("error", .obj [("code", .int (-32700)), ("data", .null), ("message", .str "no")]),
    ("id", .null), ("jsonrpc", .str "2.0"), ("more", .arr [.int 1]), ("result", .null)]

theorem parse_legal_samples :
    Message.parse (Json.obj belowZero).write =
        .error (.misshapen (.noAlternative "RequestId")) ∧
      Message.parse (Json.obj unnamed).write =
        .ok (.response ⟨version, none, none, some ⟨-32700, "no", none⟩⟩) := by
  constructor
  · have hlegal : (Message.request ⟨version, .number (-1), "workspace/configuration", none⟩).Legal
        belowZero := ⟨rfl, rfl, ⟨by decide, by decide⟩, rfl, rfl⟩
    have hvalue : (Json.obj belowZero).IsValue := by
      refine ⟨rfl, fun n hn => ?_⟩
      obtain rfl := List.mem_singleton.mp hn
      exact ⟨by decide, by decide⟩
    have hread := (parse_legal hlegal).2 hvalue (by decide) fun x hx => by
      cases List.mem_singleton.mp hx
    exact ((parse_legal hlegal).1 _ hread).2 ⟨_, rfl, (by decide : (-1 : Int) < 0)⟩
  · have hlegal : (Message.response ⟨version, none, none, some ⟨-32700, "no", none⟩⟩).Legal
        unnamed :=
      ⟨rfl, rfl, fun i hi => (by cases hi), rfl, rfl, _, rfl, rfl, by decide, rfl, rfl⟩
    have hvalue : (Json.obj unnamed).IsValue := by
      refine ⟨rfl, fun n hn => ?_⟩
      rcases List.mem_cons.mp hn with rfl | hn
      · exact ⟨by decide, by decide⟩
      · obtain rfl := List.mem_singleton.mp hn
        exact ⟨by decide, by decide⟩
    have hread := (parse_legal hlegal).2 hvalue (by decide) fun x hx => by
      rcases List.mem_cons.mp hx with hx | hx
      · cases hx
      · cases List.mem_singleton.mp hx
    refine ((parse_legal hlegal).1 _ hread).1 ?_
    rintro ⟨i, hi, -⟩
    cases hi

end Wire

end DiagnosticBroker
