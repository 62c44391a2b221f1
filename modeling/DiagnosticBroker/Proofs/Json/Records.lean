import DiagnosticBroker.Json.Decode
import Mathlib.Tactic.SplitIfs

/-!
# What a decoded record says

A decoder of a record finds each field in an object by its name, and in an array by its place. What
is decoded is, field by field, what the document says, and for fields that it leaves out the default.

Results:
* `option_eq_ok`: what a value that may be null is decoded to.
* `run_seq`, `run_map`: fields are decoded one by one.
* `run_field`, `run_required`, `run_optional`, `run_defaulted`: what a field is decoded to.
* `record_eq_ok`: a record is decoded from what the document says.
* `run_seq_eq`, `run_map_eq`, `run_field_eq`, `record_eq_of_run`: a record whose fields are decoded is
  decoded.
* `encode_of_defaulted`, `field_of_defaulted`, `le_of_defaulted`: the fields of what was decoded.
-/

namespace DiagnosticBroker.Json

/-- The place and the name of a field of a record. -/
structure Key where
  place : Nat
  name : String

/-- The fields of a record in the order of their declaration. -/
def keys (names : List String) : List Key := names.zipIdx.map fun e => ⟨e.2, e.1⟩

/-- What a document says of a field. -/
def field? (k : Key) : Json → Option Json
  | obj ms => ms.lookup k.name
  | arr js => js[k.place]?
  | _ => none

/-- What a source says of a field. -/
def Source.field? (k : Key) : Source → Option Json
  | .members ms => ms.lookup k.name
  | .items js => js[k.place]?

/-- Encoding what a decoder has made gives the document back. -/
def Decoder.Faithful {α : Type} (d : Decoder α) (encode : α → Json) : Prop :=
  ∀ {j a}, d j = .ok a → encode a = j

theorem faithful_natural (high : Nat) (type : String) :
    Decoder.Faithful (Decode.natural high type) .nat := by
  intro j n h
  unfold Decode.natural at h
  split at h
  · rename_i i
    split_ifs at h with hi
    cases h
    simp only [Bool.and_eq_true, decide_eq_true_eq] at hi
    rw [nat, Int.toNat_of_nonneg hi.1]
  · cases h

/-- A natural number that is decoded is within its bound. -/
theorem le_of_natural {high n : Nat} {type : String} {j : Json}
    (h : Decode.natural high type j = .ok n) : n ≤ high := by
  unfold Decode.natural at h
  split at h
  · split_ifs at h with hi
    cases h
    simp only [Bool.and_eq_true, decide_eq_true_eq] at hi
    omega
  · cases h

theorem faithful_bool : Decoder.Faithful Decode.bool .bool := by
  intro j b h
  unfold Decode.bool at h
  split at h <;> cases h
  rfl

theorem option_of_ne_null {α : Type} {d : Decoder α} {j : Json} {a : α} (h : j ≠ null)
    (hd : d j = .ok a) : Decode.option d j = .ok (some a) := by
  unfold Decode.option
  split
  · exact absurd rfl h
  · rw [hd]
    rfl

/-- A value that may be null is decoded to nothing if and only if it is null. -/
theorem option_eq_ok {α : Type} {d : Decoder α} {j : Json} {a : Option α}
    (h : Decode.option d j = .ok a) :
    j = null ∧ a = none ∨ j ≠ null ∧ ∃ b, d j = .ok b ∧ a = some b := by
  unfold Decode.option at h
  split at h
  · cases h
    exact .inl ⟨rfl, rfl⟩
  · rename_i hne
    cases hd : d j with
    | error e =>
      rw [hd] at h
      cases h
    | ok b =>
      rw [hd] at h
      cases h
      exact .inr ⟨hne, b, rfl, rfl⟩

namespace Fields

variable {α β : Type} {record key : String} {start : Nat} {source : Source} {d : Decoder α}
  {default : α}

/-! ## Fields one by one -/

theorem run_seq {f : Fields (α → β)} {x : Fields α} {b : β}
    (h : (f <*> x).run record start source = .ok b) :
    ∃ g a, f.run record start source = .ok g ∧ x.run record (start + f.count) source = .ok a ∧
      b = g a := by
  have hseq : (f <*> x).run record start source = (Fields.seq f fun _ => x).run record start source :=
    rfl
  rw [hseq] at h
  simp only [Fields.seq] at h
  split at h <;> cases h
  exact ⟨_, _, ‹_›, ‹_›, rfl⟩

theorem run_map {f : α → β} {x : Fields α} {b : β}
    (h : (f <$> x).run record start source = .ok b) :
    ∃ a, x.run record start source = .ok a ∧ b = f a := by
  obtain ⟨g, a, hg, ha, rfl⟩ := run_seq (f := Fields.pure f) h
  cases hg
  exact ⟨a, ha, rfl⟩

/-- The first member with a name is the one that is looked up. -/
theorem head_occurrences (name : String) (ms : List (String × Json)) :
    ms.lookup name = (occurrences name ms).head?.map (·.1) := by
  have hshift : ∀ (ms : List (String × Json)) (k : Nat), ms.lookup name =
      (((ms.zipIdx k).filter fun m => m.1.1 = name).map fun m => (m.1.2, m.2)).head?.map (·.1) := by
    intro ms
    induction ms with
    | nil => exact fun k => rfl
    | cons m ms ih =>
      intro k
      obtain ⟨n, j⟩ := m
      rw [List.zipIdx_cons, List.lookup_cons]
      by_cases hn : n = name
      · subst hn
        simp
      · have hne : (name == n) = false := by simpa using fun h => hn h.symm
        simpa [hne, hn] using ih (k + 1)
  exact hshift ms 0

/-- A field is decoded from what the source says of it, or is what stands for its absence. -/
theorem run_field {absent beyond : Option α} {a : α}
    (h : (field key d absent beyond).run record start source = .ok a) :
    source.field? ⟨start, key⟩ = none ∧ (absent = some a ∨ beyond = some a) ∨
      ∃ j, source.field? ⟨start, key⟩ = some j ∧ d j = .ok a := by
  cases source with
  | members ms =>
    have hhead := head_occurrences key ms
    simp only [field] at h
    split at h <;> rename_i hocc
    · rw [hocc] at hhead
      cases absent <;> cases h
      exact .inl ⟨hhead, .inl rfl⟩
    · rw [hocc] at hhead
      split at h <;> rename_i hd <;> cases h
      exact .inr ⟨_, hhead, hd⟩
  | items js =>
    simp only [field] at h
    cases hj : js[start]? with
    | none =>
      rw [hj] at h
      cases beyond <;> cases h
      exact .inl ⟨hj, .inr rfl⟩
    | some j =>
      rw [hj] at h
      refine .inr ⟨j, hj, ?_⟩
      cases hd : d j with
      | error e => simp [hd, Except.mapError] at h
      | ok b => simpa [hd, Except.mapError] using h

theorem run_defaulted {a : α} (h : (defaulted key d default).run record start source = .ok a) :
    source.field? ⟨start, key⟩ = none ∧ a = default ∨
      ∃ j, source.field? ⟨start, key⟩ = some j ∧ d j = .ok a := by
  refine (run_field h).imp_left fun ⟨hnone, ha⟩ => ⟨hnone, ?_⟩
  rcases ha with ha | ha <;> exact (Option.some.inj ha).symm

theorem run_required {a : α} (h : (required key d).run record start source = .ok a) :
    ∃ j, source.field? ⟨start, key⟩ = some j ∧ d j = .ok a := by
  rcases run_field h with ⟨-, ha | ha⟩ | hj
  · cases ha
  · cases ha
  · exact hj

/-- A field that may be left out is there only if the source says that it is something. -/
theorem run_optional {a : Option α} (h : (optional key d).run record start source = .ok a) :
    a = none ∨ ∃ j b, source.field? ⟨start, key⟩ = some j ∧ j ≠ null ∧ d j = .ok b ∧ a = some b := by
  rcases run_field h with ⟨-, ha | ha⟩ | ⟨j, hj, hd⟩
  · exact .inl (Option.some.inj ha).symm
  · cases ha
  · rcases option_eq_ok hd with ⟨-, ha⟩ | ⟨hne, b, hb, ha⟩
    · exact .inl ha
    · exact .inr ⟨j, b, hj, hne, hb, ha⟩

/-! ## Records -/

/-- **Records.** A record is decoded from what the document says of its fields. -/
theorem record_eq_ok {fields : Fields α} {j : Json} {a : α}
    (h : Fields.record record fields j = .ok a) :
    ∃ source, fields.run (recordText record fields.count) 0 source = .ok a ∧
      ∀ k, source.field? k = j.field? k := by
  unfold Fields.record at h
  split at h
  · rename_i ms
    refine ⟨.members ms, ?_, fun k => rfl⟩
    unfold breakOff at h
    split_ifs at h with hlast
    · split at h <;> cases h
    · cases hr : fields.run (recordText record fields.count) 0 (.members ms) with
      | error e => rw [hr] at h; cases h
      | ok b => rw [hr] at h; cases h; rfl
  · rename_i js
    split at h <;> rename_i hr
    · cases h
    · split_ifs at h
      cases h
      exact ⟨.items js, hr, fun k => rfl⟩
  · cases h

/-! ## What is decoded from an object -/

theorem run_seq_eq {f : Fields (α → β)} {x : Fields α} {g : α → β} {a : α}
    (hf : f.run record start source = .ok g)
    (hx : x.run record (start + f.count) source = .ok a) :
    (f <*> x).run record start source = .ok (g a) := by
  show (Fields.seq f fun _ => x).run record start source = _
  simp only [Fields.seq, hf, hx]

theorem run_map_eq {f : α → β} {x : Fields α} {a : α} (hx : x.run record start source = .ok a) :
    (f <$> x).run record start source = .ok (f a) :=
  run_seq_eq (f := Fields.pure f) rfl hx

theorem run_field_eq {ms : List (String × Json)} {absent beyond : Option α} {j : Json} {i : Nat}
    {a : α} (ho : occurrences key ms = [(j, i)]) (hd : d j = .ok a) :
    (field key d absent beyond).run record start (.members ms) = .ok a := by
  simp only [field, ho, hd]

theorem run_absent_eq {ms : List (String × Json)} {beyond : Option α} {a : α}
    (ho : occurrences key ms = []) :
    (field key d (some a) beyond).run record start (.members ms) = .ok a := by
  simp only [field, ho]

/-- An object that does not break off is decoded by its fields. -/
theorem record_eq_of_run {fields : Fields α} {ms : List (String × Json)} {a : α}
    (hl : (ms.getLast?.any fun m => m.2.isUnreadable) = false)
    (h : fields.run (recordText record fields.count) 0 (.members ms) = .ok a) :
    Fields.record record fields (obj ms) = .ok a := by
  have hwhole : breakOff ms (fields.run (recordText record fields.count) 0 (.members ms)) = .ok a := by
    unfold breakOff
    rw [if_neg (by rw [hl]; exact Bool.false_ne_true), h]
  rw [Fields.record, hwhole]
  rfl

/-! ## What was decoded -/

/-- A field that is decoded faithfully is what the source says, or the default. -/
theorem encode_of_defaulted {encode : α → Json} {a : α} (hd : d.Faithful encode)
    (h : (defaulted key d default).run record start source = .ok a) :
    encode a = (source.field? ⟨start, key⟩).getD (encode default) := by
  rcases run_defaulted h with ⟨hnone, rfl⟩ | ⟨j, hj, hok⟩
  · rw [hnone, Option.getD_none]
  · rw [hj, Option.getD_some, hd hok]

/-- A number that may be left out is within its bounds if its default is. -/
theorem le_of_defaulted {high n default : Nat} {type : String}
    (h : (defaulted key (Decode.natural high type) default).run record start source = .ok n)
    (hd : default ≤ high) : n ≤ high := by
  rcases run_defaulted h with ⟨-, rfl⟩ | ⟨j, -, hj⟩
  · exact hd
  · exact le_of_natural hj

/-- What a record says of a field that is a record itself and may be left out. -/
theorem field_of_defaulted {encode : α → Json} {k : Key} {a : α}
    (hd : ∀ {j b}, d j = .ok b →
      (encode b).field? k = (j.field? k).or ((encode default).field? k))
    (h : (defaulted key d default).run record start source = .ok a) :
    (encode a).field? k =
      ((source.field? ⟨start, key⟩).bind (·.field? k)).or ((encode default).field? k) := by
  rcases run_defaulted h with ⟨hnone, rfl⟩ | ⟨j, hj, hok⟩
  · rw [hnone, Option.bind_none, Option.none_or]
  · rw [hj, Option.bind_some, hd hok]

end Fields

end DiagnosticBroker.Json
