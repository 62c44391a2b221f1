import DiagnosticBroker.Proofs.Json.Values
import DiagnosticBroker.Proofs.Wire.Messages
import DiagnosticBroker.Tool.Line

/-!
# Which lines have a file checked

A file is checked for a line only if the line is a request with an id that calls the one tool there is
and names the file. Requests, the parameters of a call and its arguments may each be given as an
object or as an array of their fields, and the fields that may be left out may also be null. Every
other line is answered at once, or not at all.

Results:
* `decode_request_iff`, `decode_call_iff`, `decodeFilePath_iff`, `calledFile_iff`: which values are
  requests, and which are parameters of a call that names a file.
* `demanded_ofLine`: what is done with each kind of line.
* `check_iff`: for which lines a file is checked, and which file.
-/

namespace DiagnosticBroker.Tool

open Json (Fields)
open Wire (Id)
open Wire.Message (present)

/-! ## The specification -/

/-- An integer of 64 bits with a sign, or a text. -/
def FitsSigned : Id → Prop
  | .number i => Word.minI64 ≤ i ∧ i ≤ Word.maxI64
  | .text _ => True

/-- The value gives a request. -/
structure Request.Given (j : Json) (q : Request) : Prop where
  shape : j.HasShape 4
  jsonrpc : j.field? ⟨0, "jsonrpc"⟩ = some (.str q.jsonrpc)
  id : present (j.field? ⟨1, "id"⟩) = q.id.map Id.encode
  idFits : ∀ i ∈ q.id, FitsSigned i
  method : j.field? ⟨2, "method"⟩ = some (.str q.method)
  params : q.params = present (j.field? ⟨3, "params"⟩)

/-- The parameters of a call of the tool that names a file. -/
structure NamesFile (params : Json) (file : String) : Prop where
  shape : params.HasShape 2
  name : params.field? ⟨0, "name"⟩ = some (.str validateName)
  arguments : ∃ a, params.field? ⟨1, "arguments"⟩ = some a ∧ a.HasShape 1 ∧
    a.field? ⟨0, "file_path"⟩ = some (.str file)

/-- The request calls the tool with a file. -/
def Request.CallsWith (q : Request) (file : String) : Prop :=
  q.method = Method.callTool.name ∧ ∃ params, q.params = some params ∧ NamesFile params file

/-- The line is a request under an id that calls the tool with a file. -/
def Calls (line : String) (i : Id) (file : String) : Prop :=
  ∃ (j : Json) (q : Request), Json.read? line.toList = some j ∧ q.Given j ∧ q.id = some i ∧
    q.CallsWith file

/-- An error answer with a code. -/
def Response.Fails (id : Option Id) (code : Int) (r : Response) : Prop :=
  r.id = id ∧ r.result = none ∧ r.error.map RpcError.code = some code

/-- An answer with a result. -/
def Response.Succeeds (id : Option Id) (r : Response) : Prop :=
  r.id = id ∧ r.result.isSome ∧ r.error.isNone

/-- What is to be done with a line. -/
inductive Demanded (line : String) : Demand → Prop where
  | unparsed {r : Response} (h : Json.read? line.toList = none) (hr : r.Fails none (-32700)) :
      Demanded line (.answer r)
  | undecoded {j : Json} {r : Response} (h : Json.read? line.toList = some j)
      (hq : ∀ q : Request, ¬q.Given j) (hr : r.Fails none (-32600)) : Demanded line (.answer r)
  | notification {j : Json} {q : Request} (h : Json.read? line.toList = some j) (hq : q.Given j)
      (hid : q.id = none) : Demanded line .nothing
  | unknown {j : Json} {q : Request} {i : Id} {r : Response} (h : Json.read? line.toList = some j)
      (hq : q.Given j) (hid : q.id = some i) (hm : q.method ∉ Method.all.map Method.name)
      (hr : r.Fails (some i) (-32601)) : Demanded line (.answer r)
  | miscalled {j : Json} {q : Request} {i : Id} {r : Response}
      (h : Json.read? line.toList = some j) (hq : q.Given j) (hid : q.id = some i)
      (hm : q.method = Method.callTool.name) (hf : ∀ file, ¬q.CallsWith file)
      (hr : r.Fails (some i) (-32602)) : Demanded line (.answer r)
  | known {j : Json} {q : Request} {i : Id} {r : Response} (h : Json.read? line.toList = some j)
      (hq : q.Given j) (hid : q.id = some i) (hm : q.method ∈ Method.all.map Method.name)
      (hc : q.method ≠ Method.callTool.name) (hr : r.Succeeds (some i)) : Demanded line (.answer r)
  | check {i : Id} {file : String} (h : Calls line i file) : Demanded line (.check (some i) file)

/-! ## Single values -/

variable {j v params a : Json} {q : Request} {file line : String}

theorem string_iff {s : String} : Json.Decode.string v = .ok s ↔ v = .str s := by
  cases v <;> simp [Json.Decode.string]

theorem decodeSigned_iff {i : Id} : Id.decodeSigned v = .ok i ↔ v = i.encode ∧ FitsSigned i := by
  constructor
  · intro h
    unfold Id.decodeSigned Id.decodeWithin at h
    split at h
    · split_ifs at h with hi
      cases h
      exact ⟨rfl, by simpa [FitsSigned] using hi⟩
    · cases h
      exact ⟨rfl, trivial⟩
    · cases h
  · rintro ⟨rfl, hi⟩
    cases i with
    | text s => rfl
    | number n =>
      have hn : Word.minI64 ≤ n ∧ n ≤ Word.maxI64 := hi
      simp only [Id.decodeSigned, Id.decodeWithin, Id.encode, Json.int]
      rw [if_pos (by simpa using hn)]

theorem option_iff {α : Type} {d : Json.Decoder α} {a? : Option α} :
    Json.Decode.option d v = .ok a? ↔
      v = .null ∧ a? = none ∨ v ≠ .null ∧ ∃ b, d v = .ok b ∧ a? = some b := by
  refine ⟨Json.option_eq_ok, ?_⟩
  rintro (⟨rfl, rfl⟩ | ⟨hne, b, hb, rfl⟩)
  · rfl
  · exact Json.option_of_ne_null hne hb

/-! ## Fields -/

section

variable {record key : String} {start : Nat}

theorem run_string_iff (h : j.IsValue) {s : String} :
    (Fields.required key Json.Decode.string).run record start j.source = .ok s ↔
      j.field? ⟨start, key⟩ = some (.str s) := by
  simp [Fields.run_required_iff h, string_iff]

/-- A value that may be left out is what is said, and nothing if that is null. -/
theorem run_value_iff (h : j.IsValue) {v? : Option Json} :
    (Fields.defaulted key (Json.Decode.option Json.Decode.value) none).run record start j.source =
      .ok v? ↔ v? = present (j.field? ⟨start, key⟩) := by
  rw [Fields.defaulted, Fields.run_field_iff h]
  cases hv : j.field? ⟨start, key⟩ with
  | none => simp [present, eq_comm]
  | some v => simp [Wire.decode_value (h.field hv), eq_comm]

theorem run_id_iff (h : j.IsValue) {i? : Option Id} :
    (Fields.defaulted key (Json.Decode.option Id.decodeSigned) none).run record start j.source =
      .ok i? ↔
        present (j.field? ⟨start, key⟩) = i?.map Id.encode ∧ ∀ i ∈ i?, FitsSigned i := by
  rw [Fields.defaulted, Fields.run_field_iff h]
  cases hv : j.field? ⟨start, key⟩ with
  | none => cases i? <;> simp [present]
  | some v =>
    simp only [Option.some.injEq, exists_eq_left', reduceCtorEq, false_and, or_false, option_iff,
      decodeSigned_iff]
    cases i? with
    | none => cases v <;> simp [present, Json.isNull]
    | some i => cases v <;> cases i <;> simp [present, Json.isNull, Id.encode, Json.int]

end

/-! ## Records -/

/-- **Requests.** A value is decoded as a request if and only if it gives that request. -/
theorem decode_request_iff (h : j.IsValue) : Request.decode j = .ok q ↔ q.Given j := by
  rw [Request.decode, Fields.record_iff h]
  simp only [Fields.run_seq_iff, Fields.run_map_iff, run_string_iff h, run_value_iff h, run_id_iff h]
  constructor
  · rintro ⟨hshape, _, params, ⟨_, method, ⟨_, i?, ⟨version, hversion, rfl⟩, ⟨hid, hfits⟩, rfl⟩,
      hmethod, rfl⟩, hparams, rfl⟩
    exact ⟨hshape, hversion, hid, hfits, hmethod, hparams⟩
  · rintro ⟨hshape, hversion, hid, hfits, hmethod, hparams⟩
    exact ⟨hshape, _, q.params, ⟨_, q.method, ⟨_, q.id, ⟨q.jsonrpc, hversion, rfl⟩, ⟨hid, hfits⟩,
      rfl⟩, hmethod, rfl⟩, hparams, rfl⟩

theorem decode_call_iff (h : params.IsValue) {c : Call} :
    Call.decode params = .ok c ↔ params.HasShape 2 ∧
      params.field? ⟨0, "name"⟩ = some (.str c.name) ∧
      c.arguments = present (params.field? ⟨1, "arguments"⟩) := by
  rw [Call.decode, Fields.record_iff h]
  simp only [Fields.run_seq_iff, Fields.run_map_iff, run_string_iff h, run_value_iff h]
  constructor
  · rintro ⟨hshape, _, arguments, ⟨name, hname, rfl⟩, harguments, rfl⟩
    exact ⟨hshape, hname, harguments⟩
  · rintro ⟨hshape, hname, harguments⟩
    exact ⟨hshape, _, c.arguments, ⟨c.name, hname, rfl⟩, harguments, rfl⟩

theorem decodeFilePath_iff (h : a.IsValue) :
    decodeFilePath a = .ok file ↔ a.HasShape 1 ∧ a.field? ⟨0, "file_path"⟩ = some (.str file) := by
  rw [decodeFilePath, Fields.record_iff h, run_string_iff h]
  rfl

/-! ## Calls -/

/-- A call asks to check a file if and only if it names that file. -/
theorem calledFile_iff (h : params.IsValue) :
    calledFile params = .ok file ↔ NamesFile params file := by
  unfold calledFile
  constructor
  · intro hf
    split at hf <;> rename_i hc
    · cases hf
    · rename_i c
      obtain ⟨hshape, hname, harguments⟩ := (decode_call_iff h).mp hc
      split_ifs at hf with hvalidate
      rw [not_not] at hvalidate
      split at hf <;> rename_i ha
      · cases hf
      · rename_i a
        rw [ha, present, eq_comm, Option.filter_eq_some_iff] at harguments
        have hpath : decodeFilePath a = .ok file := by
          cases hd : decodeFilePath a <;> simp [hd, Except.mapError] at hf ⊢
          exact hf
        exact ⟨hshape, hvalidate ▸ hname, a, harguments.1,
          (decodeFilePath_iff (h.field harguments.1)).mp hpath⟩
  · rintro ⟨hshape, hname, a, ha, hfile⟩
    have hnull : a.isNull = false := by
      cases a with
      | null => exact hfile.1.elim
      | _ => rfl
    have hc : Call.decode params = .ok ⟨validateName, some a⟩ :=
      (decode_call_iff h).mpr
        ⟨hshape, hname, (Option.filter_eq_some_iff.mpr ⟨ha, by simp [hnull]⟩).symm⟩
    simp only [hc, ne_eq, not_true_eq_false, if_false,
      (decodeFilePath_iff (h.field ha)).mpr hfile]
    rfl

/-- What is wrong with a call is always that its parameters are invalid. -/
theorem code_of_calledFile {e : RpcError} (h : calledFile params = .error e) : e.code = -32602 := by
  unfold calledFile at h
  split at h
  · cases h
    rfl
  · split_ifs at h
    · cases h
      rfl
    · split at h
      · cases h
        rfl
      · rename_i a _
        cases hd : decodeFilePath a <;> simp only [hd, Except.mapError] at h <;> cases h
        rfl

/-- The parameters that a request gives, or those that stand for none. -/
theorem calledFile_params_iff (h : j.IsValue) (hq : q.Given j) :
    calledFile (q.params.getD (.obj [])) = .ok file ↔
      ∃ params, q.params = some params ∧ NamesFile params file := by
  cases hp : q.params with
  | none =>
    have hempty : (Json.obj []).IsValue := ⟨rfl, List.forall_mem_nil _⟩
    simp only [Option.getD_none, calledFile_iff hempty, reduceCtorEq, false_and, exists_false,
      iff_false]
    rintro ⟨-, hname, -⟩
    cases hname
  | some params =>
    have hgiven := hq.params
    rw [hp, present, eq_comm, Option.filter_eq_some_iff] at hgiven
    simp [calledFile_iff (h.field hgiven.1)]

/-! ## Lines -/

theorem fails_failure (id : Option Id) (e : RpcError) :
    (Response.failure id e).Fails id e.code := ⟨rfl, rfl, rfl⟩

theorem succeeds_success (id : Option Id) (result : Json) :
    (Response.success id result).Succeeds id := ⟨rfl, rfl, rfl⟩

theorem name_injective : Function.Injective Method.name := by
  intro m m' h
  cases m <;> cases m' <;> first | rfl | exact absurd h (by decide)

theorem ofName?_name (m : Method) : Method.ofName? m.name = some m := by
  cases m <;> simp [Method.ofName?, Method.all, Method.name]

/-- A method is found if and only if it has the name. -/
theorem ofName?_iff {s : String} {m : Method} : Method.ofName? s = some m ↔ s = m.name := by
  constructor
  · intro h
    simpa [eq_comm] using List.find?_some h
  · rintro rfl
    exact ofName?_name m

theorem ofName?_eq_none {s : String} (h : Method.ofName? s = none) :
    s ∉ Method.all.map Method.name := by
  intro hmem
  obtain ⟨m, -, rfl⟩ := List.mem_map.mp hmem
  rw [ofName?_name] at h
  cases h

theorem demanded_ofRequest {i : Id} (h : Json.read? line.toList = some j) (hq : q.Given j)
    (hid : q.id = some i) : Demanded line (Demand.ofRequest q) := by
  have hj := (Json.sound_of_read? h).2
  have hknown : ∀ {m : Method} {result : Json}, Method.ofName? q.method = some m → m ≠ .callTool →
      Demanded line (.answer (.success q.id result)) := by
    intro m result hm hne
    rw [ofName?_iff] at hm
    refine .known h hq hid ?_ ?_ (hid ▸ succeeds_success _ _)
    · rw [hm]
      cases m <;> decide
    · exact fun hcall => hne (name_injective (hm.symm.trans hcall))
  unfold Demand.ofRequest
  split <;> rename_i hm
  · exact hknown hm nofun
  · exact hknown hm nofun
  · exact hknown hm nofun
  · rw [ofName?_iff] at hm
    cases hf : calledFile (q.params.getD (.obj [])) with
    | ok file =>
      simp only [hf, hid]
      exact .check ⟨j, q, h, hq, hid, hm, (calledFile_params_iff hj hq).mp hf⟩
    | error e =>
      simp only [hf]
      refine .miscalled h hq hid hm (fun file hcall => ?_) ?_
      · rw [(calledFile_params_iff hj hq).mpr hcall.2] at hf
        cases hf
      · rw [← code_of_calledFile hf, ← hid]
        exact fails_failure _ _
  · refine .unknown h hq hid (ofName?_eq_none hm) ?_
    rw [hid]
    exact fails_failure _ _

/-- **Lines.** What is done with a line tells what kind of line it is, and the other way round. -/
theorem demanded_ofLine (line : String) : Demanded line (Demand.ofLine line) := by
  unfold Demand.ofLine
  split <;> rename_i hread
  · exact .unparsed hread (fails_failure _ _)
  · rename_i j
    have hj := (Json.sound_of_read? hread).2
    split <;> rename_i hd
    · refine .undecoded hread (fun q hq => ?_) (fails_failure _ _)
      rw [(decode_request_iff hj).mpr hq] at hd
      cases hd
    · rename_i q
      have hq := (decode_request_iff hj).mp hd
      cases hid : q.id with
      | none =>
        rw [Request.isNotification, hid]
        exact .notification hread hq hid
      | some i =>
        rw [Request.isNotification, hid]
        exact demanded_ofRequest hread hq hid

/-- **Checks.** A file is checked for a line if and only if the line is a request under an id that calls
the tool with that file. -/
theorem check_iff {id : Option Id} :
    Demand.ofLine line = .check id file ↔ ∃ i, id = some i ∧ Calls line i file := by
  constructor
  · intro h
    have hdemanded := demanded_ofLine line
    rw [h] at hdemanded
    cases hdemanded with
    | check hcalls => exact ⟨_, rfl, hcalls⟩
  · rintro ⟨i, rfl, j, q, hread, hq, hid, hm, hparams⟩
    have hj := (Json.sound_of_read? hread).2
    have hf := (calledFile_params_iff hj hq).mpr hparams
    simp only [Demand.ofLine, hread, (decode_request_iff hj).mpr hq, Request.isNotification, hid,
      Option.isNone_some, Bool.false_eq_true, if_false, Demand.ofRequest, hm, ofName?_name, hf]

end DiagnosticBroker.Tool
