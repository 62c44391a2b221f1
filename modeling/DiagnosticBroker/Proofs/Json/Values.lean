import DiagnosticBroker.Proofs.Json.Repeats
import DiagnosticBroker.Proofs.Json.Soundness

/-!
# Records that are decoded from values

A value repeats no member, so a field of a record is decoded from the one thing that the value says of
it. Which values a record is decoded from, and to what, can then be said field by field.

Results:
* `IsValue.sorted`, `IsValue.field`: what a value says of a field is a value.
* `run_seq_iff`, `run_map_iff`, `run_field_iff`, `record_iff`: what a record is decoded to.
* `run_member`, `run_member_failed`, `run_missing`, `record_eq_error`: the fields of an object, and
  the fault of a record with one field that is not decoded.
-/

namespace DiagnosticBroker.Json

/-! ## What a value says -/

theorem countName_le_one {ms : List (String × Json)} (h : Sorted ms) (name : String) :
    countName name ms ≤ 1 := by
  induction ms with
  | nil => exact Nat.zero_le 1
  | cons m ms ih =>
    obtain ⟨hfirst, hrest⟩ := List.pairwise_cons.mp h
    by_cases hm : m.1 = name
    · have hnone : countName name ms = 0 := by
        refine List.countP_eq_zero.mpr fun m' hm' => ?_
        have hlt : m.1 < m'.1 := hfirst m' hm'
        rw [hm] at hlt
        simpa using (ne_of_lt hlt).symm
      rw [countName, List.countP_cons, ← countName, hnone]
      split <;> omega
    · rw [countName, List.countP_cons_of_neg (by simpa using hm)]
      exact ih hrest

namespace IsValue

variable {ms : List (String × Json)} {j v : Json} {k : Key}

theorem sorted (h : (obj ms).IsValue) : Sorted ms := by
  have hms : canonicalMembers ms [] = ms := obj.inj h.canonical
  rw [← hms]
  exact sorted_canonicalMembers List.Pairwise.nil

/-- What a value says of a field is a value. -/
theorem field (h : j.IsValue) (hv : j.field? k = some v) : v.IsValue where
  canonical := canonical_of_field? (j := j) (h.canonical.symm ▸ hv)
  numbers n hn := by
    refine h.numbers n ?_
    cases j with
    | obj ms => exact mem_numbersMembers.mpr ⟨_, Assoc.mem_of_lookup hv, hn⟩
    | arr js => exact mem_numbersItems.mpr ⟨_, List.mem_of_getElem? hv, hn⟩
    | null | bool | num | str => cases hv

/-- A value does not break off. -/
theorem endsWhole (h : (obj ms).IsValue) :
    (ms.getLast?.any fun m => m.2.isUnreadable) = false :=
  endsWhole_of_inRange (inRange_of_numbers h.numbers)

end IsValue

/-! ## Records -/

/-- A record of so many fields may be given as an object, or as an array of no more items. -/
def HasShape (count : Nat) : Json → Prop
  | obj _ => True
  | arr js => js.length ≤ count
  | _ => False

/-- Where the fields of a record are read from. -/
def source : Json → Source
  | obj ms => .members ms
  | arr js => .items js
  | _ => .items []

namespace Fields

variable {α β : Type} {record key : String} {start : Nat} {source : Source} {d : Decoder α}
  {f : Fields (α → β)} {x : Fields α} {j : Json}

theorem run_seq_iff {b : β} :
    (f <*> x).run record start source = .ok b ↔ ∃ g a, f.run record start source = .ok g ∧
      x.run record (start + f.count) source = .ok a ∧ b = g a := by
  refine ⟨run_seq, ?_⟩
  rintro ⟨g, a, hg, ha, rfl⟩
  exact run_seq_eq hg ha

theorem run_map_iff {g : α → β} {b : β} :
    (g <$> x).run record start source = .ok b ↔
      ∃ a, x.run record start source = .ok a ∧ b = g a := by
  refine ⟨run_map, ?_⟩
  rintro ⟨a, ha, rfl⟩
  exact run_map_eq ha

/-- A field is decoded from what the value says of it, or is what stands for its absence. -/
theorem run_field_iff (h : j.IsValue) {missing : Option α} {a : α} :
    (field key d missing missing).run record start j.source = .ok a ↔
      (∃ v, j.field? ⟨start, key⟩ = some v ∧ d v = .ok a) ∨
        j.field? ⟨start, key⟩ = none ∧ missing = some a := by
  cases j with
  | obj ms =>
    rw [Json.source, run_members_eq_ok, and_iff_right (countName_le_one h.sorted key), or_comm]
    rfl
  | arr js =>
    simp only [Json.source, field, field?]
    cases hj : js[start]? with
    | none => cases missing <;> simp
    | some v => cases hd : d v <;> simp [hd, Except.mapError]
  | null | bool | num | str => cases missing <;> simp [Json.source, field, field?]

theorem run_required_iff (h : j.IsValue) {a : α} :
    (required key d).run record start j.source = .ok a ↔
      ∃ v, j.field? ⟨start, key⟩ = some v ∧ d v = .ok a := by
  rw [required, run_field_iff h]
  simp

theorem record_iff (h : j.IsValue) {a : α} :
    Fields.record record x j = .ok a ↔
      j.HasShape x.count ∧ x.run (recordText record x.count) 0 j.source = .ok a := by
  cases j with
  | obj ms =>
    simp only [Fields.record, breakOff, h.endsWhole, Bool.false_eq_true, if_false, HasShape,
      true_and, Json.source]
    cases x.run (recordText record x.count) 0 (.members ms) <;> simp [Except.mapError]
  | arr js =>
    simp only [Fields.record, HasShape, Json.source]
    cases x.run (recordText record x.count) 0 (.items js) with
    | error e => simp
    | ok b =>
      by_cases hlen : js.length ≤ x.count <;> simp [hlen]
  | null | bool | num | str => simp [Fields.record, HasShape]

/-! ## Objects -/

variable {ms : List (String × Json)} {absent beyond : Option α} {e : DecodeError} {fault : Fault}

/-- The only member with its name is what a field is decoded from. -/
theorem occurrences_of_lookup (h : (obj ms).IsValue) (hj : ms.lookup key = some j) :
    ∃ i, occurrences key ms = [(j, i)] := by
  have honce := countName_le_one h.sorted key
  have hhead := head_occurrences key ms
  rw [← length_occurrences] at honce
  rw [hj] at hhead
  match occurrences key ms, honce, hhead with
  | [(j', i)], _, hhead =>
    cases hhead
    exact ⟨i, rfl⟩
  | _ :: _ :: _, honce, _ => simp at honce

theorem run_member {a : α} (h : (obj ms).IsValue) (hj : ms.lookup key = some j) (hd : d j = .ok a) :
    (field key d absent beyond).run record start (.members ms) = .ok a :=
  run_members_eq_ok.mpr ⟨countName_le_one h.sorted key, .inr ⟨j, hj, hd⟩⟩

theorem run_missing {a : α} (h : (obj ms).IsValue) (hj : ms.lookup key = none) :
    (field key d (some a) beyond).run record start (.members ms) = .ok a :=
  run_members_eq_ok.mpr ⟨countName_le_one h.sorted key, .inl ⟨hj, rfl⟩⟩

theorem run_member_failed (h : (obj ms).IsValue) (hj : ms.lookup key = some j)
    (hd : d j = .error e) :
    ∃ i, (field key d absent beyond).run record start (.members ms) = .error ⟨i, e⟩ := by
  obtain ⟨i, ho⟩ := occurrences_of_lookup h hj
  exact ⟨i, by simp only [field, ho, hd]⟩

theorem run_seq_last {g : α → β} (hf : f.run record start source = .ok g)
    (hx : x.run record (start + f.count) source = .error fault) :
    (f <*> x).run record start source = .error fault := by
  show (Fields.seq f fun _ => x).run record start source = _
  simp only [Fields.seq, hf, hx]

theorem run_seq_failed {a : α} (hf : f.run record start source = .error fault)
    (hx : x.run record (start + f.count) source = .ok a) :
    (f <*> x).run record start source = .error fault := by
  show (Fields.seq f fun _ => x).run record start source = _
  simp only [Fields.seq, hf, hx]

theorem record_eq_error {place : Nat} (h : (obj ms).IsValue)
    (hx : x.run (recordText record x.count) 0 (.members ms) = .error ⟨place, e⟩) :
    Fields.record record x (obj ms) = .error e := by
  simp only [Fields.record, breakOff, h.endsWhole, Bool.false_eq_true, if_false, hx]
  rfl

end Fields

end DiagnosticBroker.Json
