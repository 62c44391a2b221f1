import DiagnosticBroker.Assoc
import DiagnosticBroker.Proofs.Json.Records
import DiagnosticBroker.Proofs.Json.Soundness
import DiagnosticBroker.Wire.Message

/-!
# Messages that were encoded are decoded again

The kind of a message is not written down: it is told from whether there is an id and a method. A
response without an id writes a null for it, so that it still has one. A value that is null counts as
absent where it may be absent, so it is all that is lost.

Results:
* `decode_encode`: the canonical form of an encoded message is decoded as the message without its
  nulls.
* `wellFormed_of_decode`: what is decoded can be encoded, and has no nulls to lose.
-/

namespace DiagnosticBroker

namespace Wire

open Json (Fields)

/-! ## Well-formed messages -/

/-- An id of 64 bits, or a text. -/
def Id.Fits : Id → Prop
  | number i => 0 ≤ i ∧ i ≤ Word.maxU64
  | text _ => True

namespace Message

def id? : Message → Option Id
  | request r => some r.id
  | notification _ => none
  | response r => r.id

def error? : Message → Option ResponseError
  | response r => r.error
  | _ => none

/-- The values that a message carries. -/
def values : Message → List Json
  | request r => r.params.toList
  | notification n => n.params.toList
  | response r => r.result.toList ++ (r.error.bind ResponseError.data).toList

/-- A message that can be held: its numbers are in range and its values are values. -/
structure WellFormed (m : Message) : Prop where
  id : ∀ i, m.id? = some i → i.Fits
  code : ∀ e, m.error? = some e → Word.minI32 ≤ e.code ∧ e.code ≤ Word.maxI32
  values : ∀ j ∈ m.values, j.IsValue

/-- A value that is null counts as absent. -/
def present (j? : Option Json) : Option Json := j?.filter fun j => !j.isNull

end Message

/-- An error with a datum that is null left out. -/
def ResponseError.withoutNulls (e : ResponseError) : ResponseError :=
  { e with data := Message.present e.data }

namespace Message

/-- A message with the values that are null left out. -/
def withoutNulls : Message → Message
  | request r => request { r with params := present r.params }
  | notification n => notification { n with params := present n.params }
  | response r => response { r with
      result := present r.result, error := r.error.map ResponseError.withoutNulls }

end Message

/-! ## What is in an encoded message -/

section

variable {P Q : Json → Prop} {depth : Nat}

/-- What holds of the object of some members if a property holds of each of them. -/
theorem objOf_induct (hobj : ∀ ms, (∀ m ∈ ms, P m.2) → Q (.obj ms))
    {members : List (Option (String × Json))} (h : ∀ m ∈ members, ∀ e ∈ m, P e.2) :
    Q (Json.objOf members) := by
  refine hobj _ fun e he => ?_
  obtain ⟨m, hm, hem⟩ := List.mem_filterMap.mp he
  exact h m hm e hem

theorem forall_some {name : String} {j : Json} (h : P j) : ∀ e ∈ some (name, j), P e.2 := by
  rintro e ⟨⟩
  exact h

theorem forall_map {name : String} {α : Type} {f : α → Json} {a? : Option α}
    (h : ∀ a ∈ a?, P (f a)) : ∀ e ∈ a?.map fun a => (name, f a), P e.2 := by
  intro e he
  obtain ⟨a, ha, rfl⟩ := Option.map_eq_some_iff.mp he
  exact h a ha

variable (hobj : ∀ ms, (∀ m ∈ ms, P m.2) → Q (.obj ms)) (hstr : ∀ s, P (.str s))

include hobj hstr

theorem encode_request_induct {r : Request} (hid : P r.id.encode) (hp : ∀ p ∈ r.params, P p) :
    Q r.encode := by
  refine objOf_induct hobj ?_
  simp only [List.forall_mem_cons]
  exact ⟨forall_some (hstr _), forall_some hid, forall_some (hstr _), forall_map hp,
    List.forall_mem_nil _⟩

theorem encode_notification_induct {n : Notification} (hp : ∀ p ∈ n.params, P p) :
    Q n.encode := by
  refine objOf_induct hobj ?_
  simp only [List.forall_mem_cons]
  exact ⟨forall_some (hstr _), forall_some (hstr _), forall_map hp, List.forall_mem_nil _⟩

theorem encode_error_induct {e : ResponseError} (hc : P (.int e.code)) (hd : ∀ p ∈ e.data, P p) :
    Q e.encode := by
  refine objOf_induct hobj ?_
  simp only [List.forall_mem_cons]
  exact ⟨forall_some hc, forall_some (hstr _), forall_map hd, List.forall_mem_nil _⟩

theorem encode_response_induct {r : Response} (hnull : P .null) (hid : ∀ i ∈ r.id, P i.encode)
    (hr : ∀ p ∈ r.result, P p) (he : ∀ e ∈ r.error, P e.encode) : Q r.encode := by
  refine objOf_induct hobj ?_
  simp only [List.forall_mem_cons]
  refine ⟨forall_some (hstr _), forall_some ?_, forall_map hr, forall_map he,
    List.forall_mem_nil _⟩
  cases h : r.id with
  | none => exact hnull
  | some i => exact hid i h

end

/-- A value is nested no deeper than a bound. -/
def NestedWithin (depth : Nat) (j : Json) : Prop := j.nesting ≤ depth

instance (depth : Nat) (j : Json) : Decidable (NestedWithin depth j) :=
  inferInstanceAs (Decidable (j.nesting ≤ depth))

/-- An object is nested one level deeper than its members. -/
theorem nestedWithin_obj {depth : Nat} (ms : List (String × Json))
    (h : ∀ m ∈ ms, NestedWithin depth m.2) : NestedWithin (depth + 1) (.obj ms) :=
  Nat.succ_le_succ (Json.nestingMembers_le.mpr h)

theorem nestedWithin_id (i : Id) (depth : Nat) : NestedWithin depth i.encode := by
  cases i <;> exact Nat.zero_le _

/-- Every number that a value holds can be written. -/
def NumbersFit (j : Json) : Prop := ∀ n ∈ j.numbers, n.IsValue

/-- The numbers of an object are those of its members. -/
theorem numbers_obj (ms : List (String × Json)) (h : ∀ m ∈ ms, NumbersFit m.2) :
    NumbersFit (.obj ms) := by
  intro n hn
  obtain ⟨m, hm, hn⟩ := Json.mem_numbersMembers.mp hn
  exact h m hm n hn

theorem numbers_id {i : Id} (h : i.Fits) : NumbersFit i.encode := by
  cases i with
  | number n =>
    intro m hm
    rw [List.mem_singleton.mp hm]
    exact ⟨Int.le_trans (by decide) h.1, h.2⟩
  | text s => exact List.forall_mem_nil _

/-- The numbers of an encoded message are numbers that can be written. -/
theorem numbers_encode {m : Message} (h : m.WellFormed) : NumbersFit m.encode := by
  obtain ⟨hid, hcode, hvalues⟩ := h
  have hstr (s : String) : NumbersFit (.str s) := List.forall_mem_nil _
  cases m with
  | request r =>
    exact encode_request_induct numbers_obj hstr (numbers_id (hid r.id rfl)) fun p hp =>
      (hvalues p (Option.mem_toList.mpr hp)).numbers
  | notification n =>
    exact encode_notification_induct numbers_obj hstr fun p hp =>
      (hvalues p (Option.mem_toList.mpr hp)).numbers
  | response r =>
    refine encode_response_induct numbers_obj hstr (List.forall_mem_nil _ : NumbersFit .null)
      (fun i hi => numbers_id (hid i hi)) (fun p hp => ?_) fun e he => ?_
    · exact (hvalues p (List.mem_append_left _ (Option.mem_toList.mpr hp))).numbers
    · refine encode_error_induct numbers_obj hstr ?_ fun p hp => ?_
      · have hc := hcode e he
        intro n hn
        rw [List.mem_singleton.mp hn]
        exact ⟨Int.le_trans (by decide) hc.1, Int.le_trans hc.2 (by decide)⟩
      · refine (hvalues p (List.mem_append_right _ (Option.mem_toList.mpr ?_))).numbers
        exact Option.mem_bind_iff.mpr ⟨e, he, hp⟩

/-! ## Decoding what was encoded -/

section

variable {record key v method : String} {start : Nat} {i : Id} {params : Option Json}

theorem decode_encode_id (h : i.Fits) : Id.decode i.encode = .ok i := by
  cases i with
  | number n =>
    have hn : 0 ≤ n ∧ n ≤ Word.maxU64 := h
    simp only [Id.decode, Id.decodeWithin, Id.encode, Json.int]
    rw [if_pos (by simpa using hn)]
  | text s => rfl

theorem canonical_encode_id : i.encode.canonical = i.encode := by
  cases i <;> rfl

theorem isUnreadable_eq_false {j : Json} (h : j.inRange = true) : j.isUnreadable = false := by
  cases j with
  | num n =>
    cases n with
    | int i => rfl
    | float x => cases x <;> first | rfl | cases h
  | _ => rfl

/-- What a value that may be null is decoded as. -/
theorem decode_value {j : Json} (h : j.IsValue) :
    Json.Decode.option Json.Decode.value j = .ok (Message.present (some j)) := by
  have hv : Json.Decode.value j = .ok j := by
    rw [Json.Decode.value, if_pos (Json.inRange_of_numbers h.numbers), h.canonical]
  by_cases hnull : j = .null
  · rw [hnull]
    rfl
  · rw [Json.option_of_ne_null hnull hv]
    cases j with
    | null => exact absurd rfl hnull
    | _ => rfl

/-- A value that may be absent is decoded from the canonical form of what was encoded. -/
theorem run_value {ms : List (String × Json)} {j? : Option Json} (place : Nat)
    (hj : ∀ j ∈ j?, j.IsValue)
    (ho : Fields.occurrences key ms = (j?.map fun j => (j.canonical, place)).toList) :
    (Fields.optional key Json.Decode.value).run record start (.members ms) =
      .ok (Message.present j?) := by
  cases j? with
  | none => exact Fields.run_absent_eq ho
  | some j =>
    have hvalue := decode_value (hj j rfl)
    refine Fields.run_field_eq ho ?_
    rw [(hj j rfl).canonical]
    exact hvalue

theorem not_breaksOff {j : Json} (h : j.IsValue) : j.canonical.isUnreadable = false := by
  rw [h.canonical]
  exact isUnreadable_eq_false (Json.inRange_of_numbers h.numbers)

theorem decode_encode_request (hi : i.Fits) (hp : ∀ j ∈ params, j.IsValue) :
    Request.decode (Request.encode ⟨v, i, method, params⟩).canonical =
      .ok ⟨v, i, method, Message.present params⟩ := by
  have hid : Id.decode i.encode.canonical = .ok i := by
    rw [canonical_encode_id]
    exact decode_encode_id hi
  refine Fields.record_eq_of_run ?last (Fields.run_seq_eq (Fields.run_seq_eq (Fields.run_seq_eq
    (Fields.run_map_eq ?version) ?id) ?method) ?params)
  case last =>
    cases params with
    | none => rfl
    | some p => exact not_breaksOff (hp p rfl)
  case version => cases params <;> exact Fields.run_field_eq rfl rfl
  case id => cases params <;> exact Fields.run_field_eq rfl hid
  case method => cases params <;> exact Fields.run_field_eq rfl rfl
  case params => cases params <;> exact run_value 3 hp rfl

theorem decode_encode_notification (hp : ∀ j ∈ params, j.IsValue) :
    Notification.decode (Notification.encode ⟨v, method, params⟩).canonical =
      .ok ⟨v, method, Message.present params⟩ := by
  refine Fields.record_eq_of_run ?last (Fields.run_seq_eq (Fields.run_seq_eq
    (Fields.run_map_eq ?version) ?method) ?params)
  case last =>
    cases params with
    | none => rfl
    | some p => exact not_breaksOff (hp p rfl)
  case version => cases params <;> exact Fields.run_field_eq rfl rfl
  case method => cases params <;> exact Fields.run_field_eq rfl rfl
  case params => cases params <;> exact run_value 2 hp rfl

theorem decode_encode_error {code : Int} {message : String} {data : Option Json}
    (hc : Word.minI32 ≤ code ∧ code ≤ Word.maxI32) (hd : ∀ j ∈ data, j.IsValue) :
    ResponseError.decode (ResponseError.encode ⟨code, message, data⟩).canonical =
      .ok ⟨code, message, Message.present data⟩ := by
  have hcode : Json.Decode.i32 (.int code) = .ok code := by
    simp only [Json.Decode.i32, Json.Decode.integer, Json.int]
    rw [if_pos (by simpa using hc)]
  refine Fields.record_eq_of_run ?last (Fields.run_seq_eq (Fields.run_seq_eq
    (Fields.run_map_eq ?code) ?message) ?data)
  case last => cases data <;> rfl
  case code => cases data <;> exact Fields.run_field_eq rfl hcode
  case message => cases data <;> exact Fields.run_field_eq rfl rfl
  case data => cases data <;> exact run_value 1 hd rfl

/-- The id of a response may be missing. -/
theorem decode_encode_id? {i? : Option Id} (hi : ∀ i ∈ i?, i.Fits) :
    Json.Decode.option Id.decode
      (match i? with | some i => i.encode | none => .null).canonical = .ok i? := by
  cases i? with
  | none => rfl
  | some i =>
    rw [canonical_encode_id]
    refine Json.option_of_ne_null ?_ (decode_encode_id (hi i rfl))
    cases i <;> exact fun h => by cases h

theorem decode_encode_response {i? : Option Id} {result : Option Json} {e? : Option ResponseError}
    (hi : ∀ i ∈ i?, i.Fits) (hr : ∀ j ∈ result, j.IsValue)
    (hc : ∀ e ∈ e?, Word.minI32 ≤ e.code ∧ e.code ≤ Word.maxI32)
    (hd : ∀ e ∈ e?, ∀ j ∈ e.data, j.IsValue) :
    Response.decode (Response.encode ⟨v, i?, result, e?⟩).canonical =
      .ok ⟨v, i?, Message.present result, e?.map ResponseError.withoutNulls⟩ := by
  have hid := decode_encode_id? hi
  have herror : ∀ e ∈ e?, Json.Decode.option ResponseError.decode e.encode.canonical =
      .ok (some e.withoutNulls) := fun e he =>
    Json.option_of_ne_null (fun h => by cases h) (decode_encode_error (hc e he) (hd e he))
  refine Fields.record_eq_of_run ?last (Fields.run_seq_eq (Fields.run_seq_eq (Fields.run_seq_eq
    (Fields.run_map_eq ?version) ?id) ?result) ?error)
  case last =>
    cases result with
    | none => cases e? <;> rfl
    | some j => cases e? <;> exact not_breaksOff (hr j rfl)
  case version => cases e? <;> cases result <;> exact Fields.run_field_eq rfl rfl
  case id => cases e? <;> cases result <;> exact Fields.run_field_eq rfl hid
  case result =>
    cases e? with
    | none => cases result <;> exact run_value 2 hr rfl
    | some e => cases result <;> exact run_value 3 hr rfl
  case error =>
    cases e? with
    | none => cases result <;> exact Fields.run_absent_eq rfl
    | some e => cases result <;> exact Fields.run_field_eq rfl (herror e rfl)

/-- **Decoding what was encoded.** The kind of a message and all that it says are told from the
canonical form of its encoding, but for the values that are null. -/
theorem decode_encode {m : Message} (h : m.WellFormed) :
    Message.decode m.encode.canonical = .ok m.withoutNulls := by
  obtain ⟨hid, hcode, hvalues⟩ := h
  cases m with
  | request r =>
    obtain ⟨v, i, method, params⟩ := r
    have hp : ∀ j ∈ params, j.IsValue := fun j hj => hvalues j (Option.mem_toList.mpr hj)
    have hkind : Message.decode (Request.encode ⟨v, i, method, params⟩).canonical =
        (Request.decode (Request.encode ⟨v, i, method, params⟩).canonical).map .request := by
      cases params <;> rfl
    rw [Message.encode, hkind, decode_encode_request (hid i rfl) hp]
    rfl
  | notification n =>
    obtain ⟨v, method, params⟩ := n
    have hp : ∀ j ∈ params, j.IsValue := fun j hj => hvalues j (Option.mem_toList.mpr hj)
    have hkind : Message.decode (Notification.encode ⟨v, method, params⟩).canonical =
        (Notification.decode (Notification.encode ⟨v, method, params⟩).canonical).map
          .notification := by
      cases params <;> rfl
    rw [Message.encode, hkind, decode_encode_notification hp]
    rfl
  | response r =>
    obtain ⟨v, i?, result, e?⟩ := r
    have hr : ∀ j ∈ result, j.IsValue := fun j hj =>
      hvalues j (List.mem_append_left _ (Option.mem_toList.mpr hj))
    have hd : ∀ e ∈ e?, ∀ j ∈ e.data, j.IsValue := fun e he j hj => by
      refine hvalues j (List.mem_append_right _ (Option.mem_toList.mpr ?_))
      exact Option.mem_bind_iff.mpr ⟨e, he, hj⟩
    have hi : ∀ i ∈ i?, i.Fits := hid
    have hc : ∀ e ∈ e?, Word.minI32 ≤ e.code ∧ e.code ≤ Word.maxI32 := hcode
    have hkind : Message.decode (Response.encode ⟨v, i?, result, e?⟩).canonical =
        (Response.decode (Response.encode ⟨v, i?, result, e?⟩).canonical).map .response := by
      cases result <;> cases e? <;> rfl
    rw [Message.encode, hkind, decode_encode_response hi hr hc hd]
    rfl

end

/-! ## What was decoded -/

/-- A value that is not null and nested no deeper than a bound. -/
structure Held (depth : Nat) (j : Json) : Prop where
  isValue : j.IsValue
  ne_null : j ≠ .null
  nesting : NestedWithin depth j

section

variable {j v : Json} {depth : Nat} {source : Json.Source} {record key : String} {start : Nat}

theorem held_of_value {p : Json} (hs : v.Sound depth) (hne : v ≠ .null)
    (h : Json.Decode.value v = .ok p) : Held depth p := by
  unfold Json.Decode.value at h
  split_ifs at h with hr
  cases h
  refine ⟨Json.isValue_canonical hs hr, ?_, Nat.le_trans (Json.nesting_canonical_le v) hs.nesting⟩
  cases v with
  | null => exact absurd rfl hne
  | _ => nofun

theorem held_of_run {p? : Option Json} (hs : j.Sound (depth + 1))
    (hf : ∀ k, source.field? k = j.field? k)
    (h : (Fields.optional key Json.Decode.value).run record start source = .ok p?) :
    ∀ p ∈ p?, Held depth p := by
  rintro p rfl
  rcases Fields.run_optional h with hnone | ⟨v, b, hv, hne, hb, hp⟩
  · cases hnone
  · obtain rfl := Option.some.inj hp
    rw [hf] at hv
    exact held_of_value (Json.sound_field hs hv) hne hb

theorem fits_of_decode {i : Id} (h : Id.decode v = .ok i) : i.Fits := by
  unfold Id.decode Id.decodeWithin at h
  split at h
  · split_ifs at h with hi
    cases h
    simpa [Id.Fits] using hi
  · cases h
    trivial
  · cases h

theorem bounds_of_i32 {i : Int} (h : Json.Decode.i32 v = .ok i) :
    Word.minI32 ≤ i ∧ i ≤ Word.maxI32 := by
  unfold Json.Decode.i32 Json.Decode.integer at h
  split at h
  · split_ifs at h with hi
    cases h
    simpa using hi
  · cases h

theorem request_of_decode {r : Request} (hs : j.Sound (depth + 1))
    (h : Request.decode j = .ok r) : r.id.Fits ∧ ∀ p ∈ r.params, Held depth p := by
  obtain ⟨source, hrun, hf⟩ := Fields.record_eq_ok h
  obtain ⟨_, params, hmethod, hparams, rfl⟩ := Fields.run_seq hrun
  obtain ⟨_, method, hprefix, -, rfl⟩ := Fields.run_seq hmethod
  obtain ⟨_, id, hversion, hid, rfl⟩ := Fields.run_seq hprefix
  obtain ⟨version, -, rfl⟩ := Fields.run_map hversion
  obtain ⟨v, -, hid⟩ := Fields.run_required hid
  exact ⟨fits_of_decode hid, held_of_run hs hf hparams⟩

theorem notification_of_decode {n : Notification} (hs : j.Sound (depth + 1))
    (h : Notification.decode j = .ok n) : ∀ p ∈ n.params, Held depth p := by
  obtain ⟨source, hrun, hf⟩ := Fields.record_eq_ok h
  obtain ⟨_, params, hmethod, hparams, rfl⟩ := Fields.run_seq hrun
  obtain ⟨_, method, hversion, -, rfl⟩ := Fields.run_seq hmethod
  obtain ⟨version, -, rfl⟩ := Fields.run_map hversion
  exact held_of_run hs hf hparams

theorem error_of_decode {e : ResponseError} (hs : j.Sound (depth + 1))
    (h : ResponseError.decode j = .ok e) :
    (Word.minI32 ≤ e.code ∧ e.code ≤ Word.maxI32) ∧ ∀ p ∈ e.data, Held depth p := by
  obtain ⟨source, hrun, hf⟩ := Fields.record_eq_ok h
  obtain ⟨_, data, hmessage, hdata, rfl⟩ := Fields.run_seq hrun
  obtain ⟨_, message, hprefix, -, rfl⟩ := Fields.run_seq hmessage
  obtain ⟨code, hcode, rfl⟩ := Fields.run_map hprefix
  obtain ⟨v, -, hcode⟩ := Fields.run_required hcode
  exact ⟨bounds_of_i32 hcode, held_of_run hs hf hdata⟩

theorem response_of_decode {r : Response} (hs : j.Sound (depth + 2))
    (h : Response.decode j = .ok r) :
    (∀ i ∈ r.id, i.Fits) ∧ (∀ p ∈ r.result, Held (depth + 1) p) ∧
      ∀ e ∈ r.error, (Word.minI32 ≤ e.code ∧ e.code ≤ Word.maxI32) ∧
        ∀ p ∈ e.data, Held depth p := by
  obtain ⟨source, hrun, hf⟩ := Fields.record_eq_ok h
  obtain ⟨_, error, hbefore, herror, rfl⟩ := Fields.run_seq hrun
  obtain ⟨_, result, hprefix, hresult, rfl⟩ := Fields.run_seq hbefore
  obtain ⟨_, id, hversion, hid, rfl⟩ := Fields.run_seq hprefix
  obtain ⟨version, -, rfl⟩ := Fields.run_map hversion
  refine ⟨?_, held_of_run hs hf hresult, ?_⟩
  · rintro i rfl
    rcases Fields.run_optional hid with hnone | ⟨v, b, -, -, hb, hi⟩
    · cases hnone
    · obtain rfl := Option.some.inj hi
      exact fits_of_decode hb
  · rintro e rfl
    rcases Fields.run_optional herror with hnone | ⟨v, b, hv, -, hb, he⟩
    · cases hnone
    · obtain rfl := Option.some.inj he
      rw [hf] at hv
      exact error_of_decode (Json.sound_field hs hv) hb

theorem present_of_held {j? : Option Json} (h : ∀ j ∈ j?, Held depth j) :
    Message.present j? = j? := by
  cases j? with
  | none => rfl
  | some j =>
    have hne := (h j rfl).ne_null
    cases j with
    | null => exact absurd rfl hne
    | _ => rfl

theorem eq_ok_of_map {α β : Type} {f : α → β} {x : Except Json.DecodeError α} {b : β}
    (h : x.map f = .ok b) : ∃ a, x = .ok a ∧ f a = b := by
  cases x with
  | error e => cases h
  | ok a => exact ⟨a, rfl, Except.ok.inj h⟩

/-- **What was decoded.** A message that was decoded can be encoded, has no value that is null, and is
nested no deeper than allowed. -/
theorem wellFormed_of_decode {m : Message} (hs : j.Sound Json.maxDepth)
    (h : Message.decode j = .ok m) :
    m.WellFormed ∧ m.withoutNulls = m ∧ NestedWithin Json.maxDepth m.encode := by
  have hstr (d : Nat) (s : String) : NestedWithin d (.str s) := Nat.zero_le d
  unfold Message.decode at h
  split at h
  · obtain ⟨r, hr, rfl⟩ := eq_ok_of_map h
    obtain ⟨hid, hp⟩ := request_of_decode hs hr
    refine ⟨⟨?_, nofun, fun p hmem => (hp p (Option.mem_toList.mp hmem)).isValue⟩, ?_, ?_⟩
    · rintro i ⟨⟩
      exact hid
    · rw [Message.withoutNulls, present_of_held hp]
    · exact encode_request_induct nestedWithin_obj (hstr _) (nestedWithin_id _ _) fun p hmem =>
        (hp p hmem).nesting
  · obtain ⟨r, hr, rfl⟩ := eq_ok_of_map h
    obtain ⟨hid, hresult, herror⟩ := response_of_decode hs hr
    have hd : ∀ e ∈ r.error, ∀ p ∈ e.data, Held 125 p := fun e he => (herror e he).2
    refine ⟨⟨hid, fun e he => (herror e he).1, fun p hmem => ?_⟩, ?_, ?_⟩
    · rcases List.mem_append.mp hmem with hmem | hmem
      · exact (hresult p (Option.mem_toList.mp hmem)).isValue
      · obtain ⟨e, he, hp⟩ := Option.mem_bind_iff.mp (Option.mem_toList.mp hmem)
        exact (hd e he p hp).isValue
    · have hwithout : r.error.map ResponseError.withoutNulls = r.error := by
        cases he : r.error with
        | none => rfl
        | some e =>
          rw [Option.map_some, ResponseError.withoutNulls, present_of_held (hd e he)]
      rw [Message.withoutNulls, present_of_held hresult, hwithout]
    · refine encode_response_induct nestedWithin_obj (hstr _) (Nat.zero_le _)
        (fun i _ => nestedWithin_id i _) (fun p hmem => (hresult p hmem).nesting) fun e he => ?_
      exact encode_error_induct nestedWithin_obj (hstr _) (Nat.zero_le _) fun p hmem =>
        (hd e he p hmem).nesting
  · obtain ⟨n, hn, rfl⟩ := eq_ok_of_map h
    have hp := notification_of_decode hs hn
    refine ⟨⟨nofun, nofun, fun p hmem => (hp p (Option.mem_toList.mp hmem)).isValue⟩, ?_, ?_⟩
    · rw [Message.withoutNulls, present_of_held hp]
    · exact encode_notification_induct nestedWithin_obj (hstr _) fun p hmem => (hp p hmem).nesting
  · cases h

end

end Wire

end DiagnosticBroker
