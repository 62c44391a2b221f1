import DiagnosticBroker.Proofs.Json.Repeats
import DiagnosticBroker.Tool.Line
import Mathlib

/-!
# Checks that are cut off

A check that takes too long is answered from its line. The answer should be what the check itself
would have been answered with: a tool result under the id of the request, about the file that was to
be checked, and flagged as an error. It is so if the line gives the parameters and the arguments in
them as objects and repeats no member of the request. A line that repeats one is decoded as a
request, since the last of the members counts, but not once more as it was written, and so the
request is not answered at all. One that gives its parameters or arguments as arrays is answered
with an error of the protocol.

Results:
* `follows_request`: what a request is decoded to from a line and from its value.
* `called_of_check`: the call that a line makes which asks for a check.
* `namedFile?_of_objects`, `namedFile?_of_not_objects`: what is made out of such a call.
* `overdue_of_check`: what is answered if a check is cut off.
-/

namespace DiagnosticBroker.Tool

open Json (Fields Decoder)

/-! ## The specification -/

/-- The members that a request is read from. -/
def Request.memberNames : List String := ["jsonrpc", "id", "method", "params"]

/-- Whether the value of a request gives its parameters, and the arguments in them, as objects. -/
def givesObjects (j : Json) : Bool :=
  match j.field? ⟨3, "params"⟩ with
  | some (.obj ms) =>
    match ms.lookup "arguments" with
    | some (.obj _) => true
    | _ => false
  | _ => false

/-- A response with a tool result under an id that is flagged as an error: it is headed by the name
of a file, and says what went wrong. -/
structure Flags (id : Option Wire.Id) (file reason : String) (r : Response) : Prop where
  id : r.id = id
  error : r.error = none
  result : r.result = some (.obj
    [("content", .arr [.obj [("type", .str "text"),
        ("text", .str (s!"Validation results for {file}:\n" ++ s!"Error: {reason}\n"))]]),
      ("isError", .bool true)])

/-- What a check of a file that is asked for under an id is answered with when it is cut off, by the
form of its line. -/
inductive CutOff (line : String) (limit : Duration) (id : Option Wire.Id) (file : String) : Prop where
  /-- The tool result is there, flagged as an error. -/
  | flagged {document : Json} {r : Response}
      (hread : Json.readDocument? line.toList = some document)
      (honce : ∀ n ∈ Request.memberNames, document.repeats n = false)
      (hobjects : givesObjects document.canonical = true)
      (hr : overdue? line limit = some r)
      (hflags : Flags id file s!"Validation did not finish within {limit.text}" r)
  /-- The parameters or the arguments are an array: the file is not made out. -/
  | nameless {document : Json}
      (hread : Json.readDocument? line.toList = some document)
      (honce : ∀ n ∈ Request.memberNames, document.repeats n = false)
      (harray : givesObjects document.canonical = false)
      (hr : overdue? line limit = some (.failure id (.internalError "Request timed out")))
  /-- A member is repeated: nothing is answered. -/
  | unanswered {document : Json} {name : String}
      (hread : Json.readDocument? line.toList = some document)
      (hname : name ∈ Request.memberNames) (htwice : document.repeats name = true)
      (hr : overdue? line limit = none)

theorem flags_of_failure (id : Option Wire.Id) (file reason : String) :
    Flags id file reason (.success id (Report.failure file reason).toolResult) where
  id := rfl
  error := rfl
  result := rfl

/-! ## Requests -/

theorem steady_decodeSigned : Decoder.Steady Wire.Id.decodeSigned := by
  intro j h
  have hc := Json.inRange_canonical h
  cases j with
  | null | bool | str => rfl
  | num n => rfl
  | arr items =>
    simp only [Wire.Id.decodeSigned, Wire.Id.decodeWithin, Json.canonical] at hc ⊢
    rw [hc, h]
  | obj ms =>
    simp only [Wire.Id.decodeSigned, Wire.Id.decodeWithin, Json.canonical] at hc ⊢
    rw [hc, h]

/-- A request is decoded from a line as from its value, unless a member is repeated. -/
theorem follows_request :
    Fields.Follows
      (Request.mk <$> Fields.required "jsonrpc" Json.Decode.string <*>
        Fields.defaulted "id" (Json.Decode.option Wire.Id.decodeSigned) none <*>
        Fields.required "method" Json.Decode.string <*>
        Fields.defaulted "params" (Json.Decode.option Json.Decode.value) none)
      Request.memberNames :=
  Fields.follows_seq
    (Fields.follows_seq
      (Fields.follows_seq (Fields.follows_map (Fields.follows_field Json.steady_string))
        (Fields.follows_field (Json.steady_option steady_decodeSigned)))
      (Fields.follows_field Json.steady_string))
    (Fields.follows_field (Json.steady_option Json.steady_value))

variable {line file : String} {limit : Duration} {id : Option Wire.Id} {j params : Json}
  {q : Request} {c : Call}

/-- What the parameters of a request are decoded from. -/
theorem run_params (h : Request.decode j = .ok q) :
    q.params = none ∨ ∃ v, j.field? ⟨3, "params"⟩ = some v ∧ q.params = some v.canonical := by
  obtain ⟨source, hrun, hfield⟩ := Fields.record_eq_ok h
  obtain ⟨withMethod, params, hmethod, hparams, rfl⟩ := Fields.run_seq hrun
  obtain ⟨withId, method, hprefix, -, rfl⟩ := Fields.run_seq hmethod
  obtain ⟨withVersion, id, hversion, -, rfl⟩ := Fields.run_seq hprefix
  obtain ⟨version, -, rfl⟩ := Fields.run_map hversion
  rw [← hfield]
  rcases Fields.run_defaulted hparams with ⟨-, hnone⟩ | ⟨v, hv, hd⟩
  · exact .inl hnone
  · rcases Json.option_eq_ok hd with ⟨-, hnone⟩ | ⟨-, w, hw, hsome⟩
    · exact .inl hnone
    · exact .inr ⟨v, hv, hsome.trans (congrArg some (Json.eq_canonical_of_value hw))⟩

/-! ## Calls -/

/-- What a call of the tool is read from: the arguments are an object or an array that gives the
file. -/
theorem calledFile_eq_ok (h : calledFile params = .ok file) :
    ∃ a, params.field? ⟨1, "arguments"⟩ = some a ∧
      a.canonical.field? ⟨0, "file_path"⟩ = some (.str file) := by
  unfold calledFile at h
  split at h <;> rename_i hc
  · cases h
  · rename_i call
    split_ifs at h
    split at h <;> rename_i ha
    · cases h
    · rename_i a
      obtain ⟨source, hrun, hfield⟩ := Fields.record_eq_ok hc
      obtain ⟨withName, arguments, hname, harguments, rfl⟩ := Fields.run_seq hrun
      obtain ⟨name, -, rfl⟩ := Fields.run_map hname
      have hsource : ∃ v, params.field? ⟨1, "arguments"⟩ = some v ∧ a = v.canonical := by
        rw [← hfield]
        rcases Fields.run_defaulted harguments with ⟨-, hnone⟩ | ⟨v, hv, hd⟩
        · exact nomatch hnone.symm.trans ha
        · rcases Json.option_eq_ok hd with ⟨-, hnone⟩ | ⟨-, w, hw, hsome⟩
          · exact nomatch hnone.symm.trans ha
          · exact ⟨v, hv, (Option.some.inj (ha.symm.trans hsome)).trans
              (Json.eq_canonical_of_value hw)⟩
      obtain ⟨v, hv, rfl⟩ := hsource
      refine ⟨v, hv, ?_⟩
      cases hd : decodeFilePath v.canonical with
      | error e => rw [hd] at h; cases h
      | ok f =>
        rw [hd] at h
        cases h
        obtain ⟨source, hrun, hfield⟩ := Fields.record_eq_ok hd
        obtain ⟨j, hj, hstring⟩ := Fields.run_required hrun
        rw [← hfield, hj]
        cases j with
        | str s => cases hstring; rfl
        | null | bool | num | arr | obj => cases hstring

/-- What a line that asks for a check says. -/
theorem called_of_check (h : Demand.ofLine line = .check id file) :
    ∃ document q, Json.readDocument? line.toList = some document ∧ document.inRange = true ∧
      Request.decode document.canonical = .ok q ∧ q.id = id ∧ q.isNotification = false ∧
      q.method = Method.callTool.name ∧ calledFile (q.params.getD (.obj [])) = .ok file := by
  unfold Demand.ofLine Json.read? at h
  cases hread : Json.readDocument? line.toList with
  | none => rw [hread] at h; cases h
  | some document =>
    rw [hread] at h
    by_cases hr : document.inRange = true
    · simp only [hr, if_true] at h
      split at h <;> rename_i hd
      · cases h
      · rename_i q
        split_ifs at h with hnote
        unfold Demand.ofRequest at h
        simp only at h
        split at h <;> rename_i hm
        all_goals try cases h
        split at h <;> rename_i hf
        · cases h
          have hmethod : q.method = Method.callTool.name := by
            simpa [eq_comm] using List.find?_some hm
          exact ⟨document, q, rfl, hr, hd, rfl, Bool.eq_false_iff.mpr hnote, hmethod, hf⟩
        · cases h
    · simp only [hr] at h
      cases h

/-! ## What is made out of a call -/

/-- A call that gives the parameters and the arguments as objects names its file in the plain
form, and another one does not. -/
theorem namedFile?_of_called (hd : Request.decode j.canonical = .ok q)
    (hm : q.method = Method.callTool.name) (hf : calledFile (q.params.getD (.obj [])) = .ok file) :
    namedFile? q = if givesObjects j.canonical then some file else none := by
  obtain ⟨a, ha, hpath⟩ := calledFile_eq_ok hf
  rcases run_params hd with hnone | ⟨v, hv, hsome⟩
  · rw [hnone] at ha
    cases ha
  · rw [Json.canonical_of_field? hv] at hsome
    rw [hsome, Option.getD_some] at ha
    rw [namedFile?, if_pos hm, hsome, givesObjects, hv, Option.bind_some]
    cases v with
    | obj ms =>
      have hlookup : ms.lookup "arguments" = some a := ha
      have hcanonical : a.canonical = a := by
        have hms : (Json.obj ms).canonical = .obj ms := Json.canonical_of_field? hv
        exact Json.canonical_of_field? (hms.symm ▸ ha)
      rw [hcanonical] at hpath
      simp only [Json.get?, hlookup, Option.bind_some]
      cases a with
      | obj as =>
        have hfile : as.lookup "file_path" = some (.str file) := hpath
        simp only [hfile, if_true]
        rfl
      | arr js => rfl
      | null | bool | num | str => cases hpath
    | arr js => rfl
    | null | bool | num | str => cases ha

/-! ## Checks that are cut off -/

/-- **Checks that are cut off.** The answer to a check that is cut off is the tool result flagged as
an error, under the id of the request and about its file, if and only if the line repeats no member
of the request and gives its parameters and arguments as objects. -/
theorem cutOff_of_check (limit : Duration) (h : Demand.ofLine line = .check id file) :
    CutOff line limit id file := by
  obtain ⟨document, q, hread, hr, hd, rfl, hnote, hm, hf⟩ := called_of_check h
  by_cases hn : ∀ n ∈ Request.memberNames, document.repeats n = false
  · have hdocument : Request.decode document = .ok q := follows_request.record_of_canonical hr hn hd
    have hnamed := namedFile?_of_called hd hm hf
    by_cases hobjects : givesObjects document.canonical = true
    · rw [if_pos hobjects] at hnamed
      have hoverdue : overdue? line limit = some (.success q.id
          (Report.failure file s!"Validation did not finish within {limit.text}").toolResult) := by
        simp only [overdue?, hread, hdocument, hnote, hnamed, Bool.false_eq_true, if_false]
      exact .flagged hread hn hobjects hoverdue (flags_of_failure ..)
    · rw [if_neg hobjects] at hnamed
      have hoverdue : overdue? line limit =
          some (.failure q.id (.internalError "Request timed out")) := by
        simp only [overdue?, hread, hdocument, hnote, hnamed, Bool.false_eq_true, if_false]
      exact .nameless hread hn (Bool.eq_false_iff.mpr hobjects) hoverdue
  · obtain ⟨name, hname, htwice⟩ : ∃ n ∈ Request.memberNames, document.repeats n = true := by
      simpa using hn
    refine .unanswered hread hname htwice ?_
    have herror : ∀ q, Request.decode document ≠ .ok q := fun q =>
      follows_request.record_ne_ok hname htwice
    cases hdocument : Request.decode document with
    | error e => simp only [overdue?, hread, hdocument]
    | ok q => exact absurd hdocument (herror q)

/-- A call that gives its id twice. -/
def twiceNumbered : String :=
  "\x7b\"jsonrpc\":\"2.0\",\"id\":1,\"id\":2,\"method\":\"tools/call\",\"params\":" ++
    "\x7b\"name\":\"validate\",\"arguments\":\x7b\"file_path\":\"/a.py\"\x7d\x7d\x7d"

/-- A check that is asked for with two ids is not answered if it is cut off. -/
theorem cutOff_of_check_twice :
    Demand.ofLine twiceNumbered = .check (some (.number 2)) "/a.py" ∧
      CutOff twiceNumbered (.ofMillis 100) (some (.number 2)) "/a.py" ∧
      overdue? twiceNumbered (.ofMillis 100) = none := by
  have hcheck : Demand.ofLine twiceNumbered = .check (some (.number 2)) "/a.py" := by cbv
  exact ⟨hcheck, cutOff_of_check _ hcheck, by cbv⟩

end DiagnosticBroker.Tool
