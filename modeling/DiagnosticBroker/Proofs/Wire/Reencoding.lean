import DiagnosticBroker.Proofs.Json.Reencoding
import DiagnosticBroker.Settings.Basic
import DiagnosticBroker.Tool.Message
import DiagnosticBroker.Wire.Document
import DiagnosticBroker.Wire.Handshake

/-!
# Everything that is sent or stored is stable

Each type is decoded by its own rules: a field may have to be there, may be null or left out, in
objects only or also at the end of an array, or may have a default; it may be written always, as
null, or not at all. For each of them the rule for decoding and the rule for encoding match.

Results:
* `Wire.Publish.stable`, `Report.stable`, `Settings.stable`, `Tool.Request.stable` and so on: the
  encoding of each type is stable, and so are those of its parts.
* `reencodes_of_decode`: what is decoded from any document is decoded again from its encoding.
-/

namespace DiagnosticBroker

variable {depth : Nat}

namespace Json

/-! ## Single values -/

theorem stable_u32 : Stable depth Decode.u32 .nat := stable_natural (by decide)

theorem stable_i32 : Stable depth Decode.i32 .int := stable_integer (by decide) (by decide)

theorem stable_i64 : Stable depth Decode.i64 .int := stable_integer (by decide) (by decide)

theorem notNull_string : NotNull Decode.string .str := fun _ _ _ _ => nofun

theorem notNull_i64 : NotNull Decode.i64 .int := fun _ _ _ _ => nofun

theorem notNull_i32 : NotNull Decode.i32 .int := fun _ _ _ _ => nofun

theorem notNull_value : NotNull Decode.value id := by
  intro j a hj hd
  rw [eq_canonical_of_value hd]
  exact mt canonical_eq_null.mp hj

end Json

open Json
open Json.Fields (keeps_required keeps_defaulted keeps_optional keeps_omissible keeps_nullable
  keeps_count keeps_switch keeps_table keeps_section)

/-! ## Diagnostics -/

theorem Position.stable : Stable (depth + 1) decode encode :=
  Fields.Keeps.record ((keeps_required stable_u32).map mk |>.seq (keeps_required stable_u32))
    (by decide) fun _ => rfl

theorem Span.stable : Stable (depth + 2) decode encode :=
  Fields.Keeps.record
    ((keeps_required Position.stable).map mk |>.seq (keeps_required Position.stable))
    (by decide) fun _ => rfl

theorem Wire.Diagnostic.stable : Stable (depth + 3) decode encode := by
  refine Fields.Keeps.record ((keeps_required Span.stable).map mk
    |>.seq (keeps_optional stable_i64 notNull_i64)
    |>.seq (keeps_optional stable_value notNull_value)
    |>.seq (keeps_optional stable_string notNull_string)
    |>.seq (keeps_required stable_string)) (by decide) ?_
  rintro ⟨⟨⟨⟨range, severity⟩, code⟩, source⟩, message⟩
  cases severity <;> cases code <;> cases source <;> rfl

theorem Wire.Publish.stable : Stable (depth + 5) decode encode := by
  refine Fields.Keeps.record ((keeps_required stable_string).map mk
    |>.seq (keeps_omissible stable_i32 notNull_i32)
    |>.seq (keeps_required (stable_list Wire.Diagnostic.stable))) (by decide) ?_
  rintro ⟨⟨uri, version⟩, diagnostics⟩
  cases version <;> rfl

theorem Severity.stable : Stable depth decode encode :=
  stable_plain fun {j s} _ => ⟨.str s.label, by cases s <;> rfl⟩

theorem Diagnostic.stable : Stable (depth + 1) decode encode := by
  refine Fields.Keeps.record ((keeps_required stable_string).map mk
    |>.seq (keeps_required Severity.stable)
    |>.seq (keeps_required stable_u32)
    |>.seq (keeps_required stable_u32)
    |>.seq (keeps_optional stable_string notNull_string)) (by decide) ?_
  rintro ⟨r, source⟩
  cases source <;> rfl

theorem Report.stable : Stable (depth + 3) decode encode := by
  refine Fields.Keeps.record ((keeps_required stable_string).map mk
    |>.seq (keeps_table Diagnostic.stable)
    |>.seq (keeps_nullable stable_string notNull_string)) (by decide) ?_
  rintro ⟨r, error⟩
  cases error <;> rfl

/-! ## The handshake and the log -/

theorem Wire.ProgramInfo.stable (type : String) :
    Stable (depth + 1) (decodeAs type) encode := by
  refine Fields.Keeps.record ((keeps_required stable_string).map mk
    |>.seq (keeps_optional stable_string notNull_string)) (by decide) ?_
  rintro ⟨name, version⟩
  cases version <;> rfl

theorem Wire.InitializeResult.stable : Stable (depth + 2) decode encode := by
  have hnull : Json.null.Sound (depth + 1) := ⟨Nat.zero_le _, nofun⟩
  refine Fields.Keeps.record ((keeps_defaulted stable_value rfl hnull).map mk
    |>.seq (keeps_optional (ProgramInfo.stable _) fun _ _ _ _ => nofun)) (by decide) ?_
  rintro ⟨capabilities, serverInfo⟩
  cases serverInfo <;> rfl

theorem Wire.LogLevel.stable : Stable depth decode fun l => .nat l.number :=
  stable_plain fun {j l} _ => ⟨by cases l <;> exact .int _ (by decide), by cases l <;> rfl⟩

theorem Wire.LogLine.stable : Stable (depth + 1) decode encode :=
  Fields.Keeps.record
    ((keeps_required LogLevel.stable).map mk |>.seq (keeps_required stable_string))
    (by decide) fun _ => rfl

/-! ## Settings -/

theorem BackendSettings.stable : Stable (depth + 1) decode encode :=
  Fields.Keeps.record ((keeps_count (by decide) (by decide)).map mk
    |>.seq (keeps_count (by decide) (by decide))
    |>.seq (keeps_count (by decide) (by decide))
    |>.seq keeps_switch
    |>.seq (keeps_count (by decide) (by decide))
    |>.seq (keeps_count (by decide) (by decide))
    |>.seq (keeps_count (by decide) (by decide))
    |>.seq keeps_switch) (by decide) fun _ => rfl

theorem ServerSettings.stable : Stable (depth + 1) decode encode :=
  Fields.Keeps.record ((keeps_count (by decide) (by decide)).map mk
    |>.seq (keeps_count (by decide) (by decide))) (by decide) fun _ => rfl

theorem BackendEntry.stable : Stable (depth + 2) decode encode :=
  Fields.Keeps.record ((keeps_required stable_string).map mk
    |>.seq (keeps_required (stable_list stable_string))
    |>.seq (keeps_table stable_string)
    |>.seq (keeps_required stable_string)) (by decide) fun _ => rfl

theorem Settings.stable : Stable (depth + 4) decode encode :=
  Fields.Keeps.record ((keeps_section BackendSettings.stable rfl).map mk
    |>.seq (keeps_section ServerSettings.stable rfl)
    |>.seq (keeps_table BackendEntry.stable)) (by decide) fun _ => rfl

/-! ## Messages -/

namespace Wire

theorem Id.stable {low high : Int} (hlow : Word.minI64 ≤ low) (hhigh : high ≤ Word.maxU64) :
    Stable depth (Id.decodeWithin low high) Id.encode :=
  stable_plain fun {j i} hd => by
    unfold Id.decodeWithin at hd
    split at hd
    · split_ifs at hd with hi
      cases hd
      have hbounds := hi
      simp only [Bool.and_eq_true, decide_eq_true_eq] at hbounds
      exact ⟨.int _ ⟨by omega, by omega⟩,
        by simp only [Id.decodeWithin, Id.encode, Json.int, hi, if_true]⟩
    · cases hd
      exact ⟨.str _, rfl⟩
    · split_ifs at hd

theorem Id.notNull (d : Decoder Id) : NotNull d Id.encode := by
  intro j i _ _
  cases i <;> nofun

theorem Request.stable : Stable (depth + 1) decode encode := by
  refine Fields.Keeps.record ((keeps_required stable_string).map mk
    |>.seq (keeps_required (Id.stable (by decide) (by decide)))
    |>.seq (keeps_required stable_string)
    |>.seq (keeps_optional stable_value notNull_value)) (by decide) ?_
  rintro ⟨r, params⟩
  cases params <;> rfl

theorem Notification.stable : Stable (depth + 1) decode encode := by
  refine Fields.Keeps.record ((keeps_required stable_string).map mk
    |>.seq (keeps_required stable_string)
    |>.seq (keeps_optional stable_value notNull_value)) (by decide) ?_
  rintro ⟨r, params⟩
  cases params <;> rfl

theorem ResponseError.stable : Stable (depth + 1) decode encode := by
  refine Fields.Keeps.record ((keeps_required stable_i32).map mk
    |>.seq (keeps_required stable_string)
    |>.seq (keeps_optional stable_value notNull_value)) (by decide) ?_
  rintro ⟨r, data⟩
  cases data <;> rfl

theorem Response.stable : Stable (depth + 2) decode encode := by
  refine Fields.Keeps.record ((keeps_required stable_string).map mk
    |>.seq (keeps_nullable (Id.stable (by decide) (by decide)) (Id.notNull _))
    |>.seq (keeps_optional stable_value notNull_value)
    |>.seq (keeps_optional ResponseError.stable fun _ _ _ _ => nofun)) (by decide) ?_
  rintro ⟨⟨⟨version, id⟩, result⟩, error⟩
  cases id <;> cases result <;> cases error <;> rfl

end Wire

namespace Tool

theorem Request.stable : Stable (depth + 1) decode encode := by
  refine Fields.Keeps.record ((keeps_required stable_string).map mk
    |>.seq (keeps_omissible (Wire.Id.stable (by decide) (by decide)) (Wire.Id.notNull _))
    |>.seq (keeps_required stable_string)
    |>.seq (keeps_omissible stable_value notNull_value)) (by decide) ?_
  rintro ⟨⟨⟨version, id⟩, method⟩, params⟩
  cases id <;> cases params <;> rfl

theorem RpcError.stable : Stable (depth + 1) decode encode := by
  refine Fields.Keeps.record ((keeps_required stable_i32).map mk
    |>.seq (keeps_required stable_string)
    |>.seq (keeps_optional stable_value notNull_value)) (by decide) ?_
  rintro ⟨r, data⟩
  cases data <;> rfl

theorem Response.stable : Stable (depth + 2) decode encode := by
  refine Fields.Keeps.record ((keeps_required stable_string).map mk
    |>.seq (keeps_nullable (Wire.Id.stable (by decide) (by decide)) (Wire.Id.notNull _))
    |>.seq (keeps_optional stable_value notNull_value)
    |>.seq (keeps_optional RpcError.stable fun _ _ _ _ => nofun)) (by decide) ?_
  rintro ⟨⟨⟨version, id⟩, result⟩, error⟩
  cases id <;> cases result <;> cases error <;> rfl

end Tool

/-! ## All of them -/

/-- **Reencoding.** Whatever document is decoded, with members in any order, left out, null or
added, or as an array of the fields: what it is decoded to is decoded again from its encoding. That
is so for the encoding as it is and for the value that it stands for, and for the text of either, if
the document itself can be read from a text and the doubles in its untyped values are read back. -/
theorem reencodes_of_decode :
    Reencodes Wire.Publish.decode Wire.Publish.encode ∧
      Reencodes Wire.InitializeResult.decode Wire.InitializeResult.encode ∧
      Reencodes Wire.LogLine.decode Wire.LogLine.encode ∧
      Reencodes Report.decode Report.encode ∧
      Reencodes Settings.decode Settings.encode ∧
      Reencodes BackendEntry.decode BackendEntry.encode ∧
      Reencodes Wire.Request.decode Wire.Request.encode ∧
      Reencodes Wire.Response.decode Wire.Response.encode ∧
      Reencodes Wire.Notification.decode Wire.Notification.encode ∧
      Reencodes Tool.Request.decode Tool.Request.encode ∧
      Reencodes Tool.Response.decode Tool.Response.encode :=
  ⟨Wire.Publish.stable.reencodes, Wire.InitializeResult.stable.reencodes,
    Wire.LogLine.stable.reencodes, Report.stable.reencodes, Settings.stable.reencodes,
    BackendEntry.stable.reencodes, Wire.Request.stable.reencodes, Wire.Response.stable.reencodes,
    Wire.Notification.stable.reencodes, Tool.Request.stable.reencodes,
    Tool.Response.stable.reencodes⟩

/-- A response that is given as an array, with null for what is absent, is written as an object that
has an id and no result. -/
theorem reencodes_of_array :
    let j : Json := .arr [.str "2.0", .null, .null, .arr [.int 1, .str "x", .null]]
    let r : Tool.Response := ⟨"2.0", none, none, some ⟨1, "x", none⟩⟩
    Tool.Response.decode j = .ok r ∧
      r.encode = .obj [("jsonrpc", .str "2.0"), ("id", .null),
        ("error", .obj [("code", .int 1), ("message", .str "x")])] ∧
      Tool.Response.decode r.encode = .ok r ∧
      (readDocument? r.encode.write).map Tool.Response.decode = some (.ok r) := by
  intro j r
  have hdecode : Tool.Response.decode j = .ok r := rfl
  have hsound : j.Sound maxDepth := by
    refine ⟨by decide, fun n hn => ?_⟩
    rw [List.mem_singleton.mp hn]
    exact ⟨by decide, by decide⟩
  have hdoubles : ∀ x, Number.float x ∈ r.encode.numbers → (Number.float x).Rereads := by
    intro x hx
    cases List.mem_singleton.mp hx
  obtain ⟨-, -, -, -, -, -, -, -, -, -, hresponse⟩ := reencodes_of_decode
  obtain ⟨hok, -, htext⟩ := hresponse j r hdecode
  exact ⟨hdecode, rfl, hok, (htext hsound hdoubles).1⟩

end DiagnosticBroker
