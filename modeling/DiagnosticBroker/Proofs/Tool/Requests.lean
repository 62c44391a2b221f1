import DiagnosticBroker.Proofs.Json.Records
import DiagnosticBroker.Tool.Line
import Mathlib.Data.List.Forall2
import Mathlib.Data.List.ReduceOption

/-!
# Which lines are answered

A line is answered unless it is a notification: a request that has no id, or the id null. The answer
carries the id of the request; what is no request is answered without an id and with an error code
that tells whether it was JSON.

Results:
* `isSome_id`: what of a request tells that it is no notification.
* `settles_of_serves`: what is sent for a line that is given what it asks for is what it needs.
-/

namespace DiagnosticBroker.Tool

open Json (Fields)

/-- Whether a request has an id that is not null. -/
def hasId (j : Json) : Bool :=
  match j.field? ⟨1, "id"⟩ with
  | none => false
  | some .null => false
  | some _ => true

/-- Whether a line is answered if it is not blank. -/
def needsAnswer (line : String) : Bool :=
  match Json.read? line.toList with
  | none => true
  | some j =>
    match Request.decode j with
    | .error _ => true
    | .ok _ => hasId j

/-- What the answer to a line is like. -/
inductive Answers (line : String) (r : Response) : Prop where
  /-- The line is not JSON. -/
  | unparsed (h : Json.read? line.toList = none) (hid : r.id = none)
      (hcode : r.error.map RpcError.code = some (-32700))
  /-- The line is JSON but no request. -/
  | undecoded {j : Json} {e : Json.DecodeError} (h : Json.read? line.toList = some j)
      (hd : Request.decode j = .error e) (hid : r.id = none)
      (hcode : r.error.map RpcError.code = some (-32600))
  /-- The line is a request, with an id. -/
  | requested {j : Json} {q : Request} {i : Wire.Id} (h : Json.read? line.toList = some j)
      (hd : Request.decode j = .ok q) (hq : q.id = some i) (hid : r.id = some i)

/-- What is sent for a line is what it needs. -/
inductive Settles (line : String) : Option Response → Prop where
  | silent (h : needsAnswer line = false) : Settles line none
  | answered {r : Response} (h : needsAnswer line = true) (ha : Answers line r) :
      Settles line (some r)

variable {line : String} {j : Json} {q : Request}

/-! ## Notifications -/

/-- What the id of a request is decoded from. -/
theorem run_id (h : Request.decode j = .ok q) :
    j.field? ⟨1, "id"⟩ = none ∧ q.id = none ∨
      ∃ v, j.field? ⟨1, "id"⟩ = some v ∧
        Json.Decode.option Wire.Id.decodeSigned v = .ok q.id := by
  obtain ⟨source, hrun, hfield⟩ := Fields.record_eq_ok h
  obtain ⟨withMethod, params, hmethod, -, rfl⟩ := Fields.run_seq hrun
  obtain ⟨withId, method, hprefix, -, rfl⟩ := Fields.run_seq hmethod
  obtain ⟨withVersion, id, hversion, hid, rfl⟩ := Fields.run_seq hprefix
  obtain ⟨version, -, rfl⟩ := Fields.run_map hversion
  rw [← hfield]
  exact Fields.run_defaulted hid

/-- A request is no notification if and only if it has an id that is not null. -/
theorem isSome_id (h : Request.decode j = .ok q) : q.id.isSome = hasId j := by
  unfold hasId
  rcases run_id h with ⟨hnone, hq⟩ | ⟨v, hv, hd⟩
  · rw [hnone, hq]
    rfl
  · rw [hv]
    rcases Json.option_eq_ok hd with ⟨rfl, hq⟩ | ⟨hne, i, -, hq⟩
    · rw [hq]
      rfl
    · rw [hq]
      cases v with
      | null => exact absurd rfl hne
      | _ => rfl

/-! ## What is done with a line -/

/-- A request that is no notification is answered at once under its id, or a file is checked for it. -/
theorem ofRequest_cases (q : Request) :
    (∃ r, Demand.ofRequest q = .answer r ∧ r.id = q.id) ∨
      ∃ file, Demand.ofRequest q = .check q.id file := by
  unfold Demand.ofRequest
  split
  · exact .inl ⟨_, rfl, rfl⟩
  · exact .inl ⟨_, rfl, rfl⟩
  · exact .inl ⟨_, rfl, rfl⟩
  · simp only
    split
    · exact .inr ⟨_, rfl⟩
    · exact .inl ⟨_, rfl, rfl⟩
  · exact .inl ⟨_, rfl, rfl⟩

/-- What a line asks for tells what the line is. -/
inductive Asks (line : String) : Demand → Prop where
  | nothing (h : needsAnswer line = false) : Asks line .nothing
  | answer {r : Response} (h : needsAnswer line = true) (ha : Answers line r) :
      Asks line (.answer r)
  | check {id : Option Wire.Id} {file : String} (h : needsAnswer line = true)
      (ha : ∀ r : Response, r.id = id → Answers line r) : Asks line (.check id file)

theorem asks_ofLine (line : String) : Asks line (Demand.ofLine line) := by
  unfold Demand.ofLine
  split <;> rename_i hread
  · exact .answer (by simp [needsAnswer, hread]) (.unparsed hread rfl rfl)
  · split <;> rename_i hdecode
    · exact .answer (by simp [needsAnswer, hread, hdecode]) (.undecoded hread hdecode rfl rfl)
    · rename_i j q
      have hneeds : needsAnswer line = q.id.isSome := by
        simp [needsAnswer, hread, hdecode, isSome_id hdecode]
      split_ifs with hnote
      · exact .nothing (by rw [hneeds, ← Option.not_isNone, ← Request.isNotification, hnote]; rfl)
      · have hsome : q.id.isSome = true := by
          rw [← Option.not_isNone, ← Request.isNotification, Bool.not_eq_true', ← Bool.not_eq_true]
          exact hnote
        obtain ⟨i, hi⟩ := Option.isSome_iff_exists.mp hsome
        rcases ofRequest_cases q with ⟨r, hr, hid⟩ | ⟨file, hf⟩
        · rw [hr]
          exact .answer (hneeds.trans hsome) (.requested hread hdecode hi (hid.trans hi))
        · rw [hf]
          exact .check (hneeds.trans hsome) fun r hid => .requested hread hdecode hi (hid.trans hi)

/-- What is sent for a line is what it asks for, and for a check its report. -/
inductive Serves (line : String) : Option Response → Prop where
  | nothing (h : Demand.ofLine line = .nothing) : Serves line none
  | answer {r : Response} (h : Demand.ofLine line = .answer r) : Serves line (some r)
  | report {id : Option Wire.Id} {file : String} {report : Report}
      (h : Demand.ofLine line = .check id file) :
      Serves line (some (.success id report.toolResult))

theorem settles_of_serves {r? : Option Response} (h : Serves line r?) : Settles line r? := by
  cases h with
  | nothing h =>
    have hasks := h ▸ asks_ofLine line
    cases hasks with
    | nothing hneeds => exact .silent hneeds
  | answer h =>
    have hasks := h ▸ asks_ofLine line
    cases hasks with
    | answer hneeds ha => exact .answered hneeds ha
  | report h =>
    have hasks := h ▸ asks_ofLine line
    cases hasks with
    | check hneeds ha => exact .answered hneeds (ha _ rfl)

/-! ## All lines -/

/-- Among what was done with some lines are the answers to those of them that need one. -/
theorem answers_of_settles {lines : List String} {rs : List (Option Response)}
    (h : List.Forall₂ Settles lines rs) :
    List.Forall₂ Answers (lines.filter needsAnswer) rs.reduceOption := by
  induction h with
  | nil => exact .nil
  | cons hs _ ih =>
    cases hs with
    | silent hneeds =>
      rw [List.filter_cons_of_neg (by rw [hneeds]; exact Bool.false_ne_true)]
      exact ih
    | answered hneeds ha =>
      rw [List.filter_cons_of_pos hneeds]
      exact .cons ha ih

end DiagnosticBroker.Tool
