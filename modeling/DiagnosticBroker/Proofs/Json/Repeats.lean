import DiagnosticBroker.Assoc
import DiagnosticBroker.Proofs.Json.Canonical
import DiagnosticBroker.Proofs.Json.Records

/-!
# Documents that repeat a member

An object may give a member several times. Its value keeps the last of them, but a decoder that is
given the document as it was written refuses a field that is repeated. So a record can be decoded
from the value and not from the document. That is the only difference: if no field of the record is
repeated, what is decoded from the value is decoded from the document.

Results:
* `lookup_canonicalMembers`: the value of an object keeps of each name the last member.
* `Decoder.Steady`, `Fields.Follows`: decoders that do not tell a document from its value, but for
  repeated fields; `follows_field`, `follows_seq`, `follows_map`: how they are put together.
* `Fields.Follows.record_of_canonical`, `Fields.Follows.record_ne_ok`: records.
-/

namespace DiagnosticBroker.Json

variable {α β : Type}

/-! ## Members of a value -/

/-- The members with a name that a decoder finds. -/
theorem Fields.map_fst_occurrences (name : String) (ms : List (String × Json)) :
    (occurrences name ms).map (·.1) = (ms.filter fun m => m.1 = name).map (·.2) := by
  have hshift : ∀ (ms : List (String × Json)) (k : Nat),
      ((ms.zipIdx k).filter fun m => m.1.1 = name).map (·.1.2) =
        (ms.filter fun m => m.1 = name).map (·.2) := by
    intro ms
    induction ms with
    | nil => exact fun k => rfl
    | cons m ms ih =>
      intro k
      rw [List.zipIdx_cons]
      by_cases hm : m.1 = name
      · rw [List.filter_cons_of_pos (by simpa using hm), List.filter_cons_of_pos (by simpa using hm),
          List.map_cons, List.map_cons, ih]
      · rw [List.filter_cons_of_neg (by simpa using hm), List.filter_cons_of_neg (by simpa using hm),
          ih]
  rw [occurrences, List.map_map]
  exact hshift ms 0

/-- How many members have a name. -/
def countName (name : String) (ms : List (String × Json)) : Nat := ms.countP fun m => m.1 = name

/-- Whether an object has several members with a name. -/
def repeats (name : String) : Json → Bool
  | obj ms => 1 < countName name ms
  | _ => false

theorem lookup_insertMember (name k : String) (v : Json) (ms : List (String × Json)) :
    (insertMember name v ms).lookup k = if k = name then some v else ms.lookup k := by
  induction ms with
  | nil => by_cases hk : k = name <;> simp [insertMember, hk]
  | cons p ms ih =>
    obtain ⟨n, w⟩ := p
    have hcons : ∀ (x : String) (u : Json) (rest : List (String × Json)),
        ((x, u) :: rest).lookup k = if k = x then some u else rest.lookup k := by
      intro x u rest
      by_cases hk : k = x
      · rw [if_pos hk, hk, List.lookup_cons_self]
      · rw [if_neg hk, List.lookup_cons, beq_eq_false_iff_ne.mpr hk]
    rw [insertMember]
    by_cases hlt : name < n
    · rw [if_pos hlt, hcons]
    · rw [if_neg hlt]
      by_cases heq : name = n
      · rw [if_pos heq, hcons, hcons, ← heq]
        split_ifs <;> rfl
      · rw [if_neg heq, hcons, hcons, ih]
        by_cases hk : k = n
        · rw [if_pos hk, if_pos hk, if_neg fun h => heq (h.symm.trans hk)]
        · rw [if_neg hk, if_neg hk]

/-- The value of an object keeps of each name the last member. -/
theorem lookup_canonicalMembers (k : String) (ms sorted : List (String × Json)) :
    (canonicalMembers ms sorted).lookup k =
      ((ms.filter fun m => m.1 = k).getLast?.map (·.2.canonical)).or (sorted.lookup k) := by
  induction ms generalizing sorted with
  | nil => rfl
  | cons p ms ih =>
    obtain ⟨name, j⟩ := p
    rw [canonicalMembers, ih, lookup_insertMember]
    by_cases hk : name = k
    · rw [List.filter_cons_of_pos (by simpa using hk), if_pos hk.symm, List.getLast?_cons]
      cases (ms.filter fun m => m.1 = k).getLast? <;> rfl
    · rw [List.filter_cons_of_neg (by simpa using hk), if_neg (Ne.symm hk)]

/-- A member that is not repeated is in the value of an object as it is in the object. -/
theorem lookup_canonicalMembers_of_once {k : String} {ms : List (String × Json)}
    (h : countName k ms ≤ 1) :
    (canonicalMembers ms []).lookup k = (ms.lookup k).map canonical := by
  rw [lookup_canonicalMembers, Fields.head_occurrences k ms, ← List.head?_map,
    Fields.map_fst_occurrences]
  rw [countName, List.countP_eq_length_filter] at h
  generalize (ms.filter fun m => m.1 = k) = found at h ⊢
  match found, h with
  | [], _ => rfl
  | [m], _ => rfl
  | _ :: _ :: rest, h => simp at h

/-- What a value says of a field is a value. -/
theorem canonical_of_field? {k : Key} {j v : Json} (h : j.canonical.field? k = some v) :
    v.canonical = v := by
  cases j with
  | obj ms =>
    rcases mem_canonicalMembers (Assoc.mem_of_lookup h) with hm | ⟨m, -, hm⟩
    · cases hm
    · rw [(Prod.mk.inj hm).2, canonical_canonical]
  | arr js =>
    simp only [canonical, canonicalItems_eq_map, field?, List.getElem?_map] at h
    obtain ⟨j, -, rfl⟩ := Option.map_eq_some_iff.mp h
    exact canonical_canonical j
  | null | bool | num | str => cases h

theorem inRange_canonical {j : Json} (h : j.inRange = true) : j.canonical.inRange = true :=
  (inRange_iff _).mpr fun x hx => (inRange_iff j).mp h x (numbers_canonical_subset j hx)

/-- A document in range does not break off. -/
theorem isUnreadable_of_inRange {j : Json} (h : j.inRange = true) : j.isUnreadable = false := by
  unfold isUnreadable
  split
  · cases h
  · rfl

/-- An object in range does not break off. -/
theorem endsWhole_of_inRange {ms : List (String × Json)} (h : (obj ms).inRange = true) :
    (ms.getLast?.any fun m => m.2.isUnreadable) = false := by
  cases hl : ms.getLast? with
  | none => rfl
  | some m =>
    exact isUnreadable_of_inRange (inRangeMembers_eq_true.mp h m (List.mem_of_getLast? hl))

/-! ## Decoders of values -/

/-- Decoding a document in range and decoding its value come to the same. -/
def Decoder.Steady (d : Decoder α) : Prop :=
  ∀ {j : Json}, j.inRange = true → d j.canonical = d j

theorem steady_string : Decoder.Steady Decode.string := by
  intro j _
  cases j <;> rfl

theorem steady_value : Decoder.Steady Decode.value := by
  intro j h
  rw [Decode.value, Decode.value, inRange_canonical h, h, canonical_canonical]

theorem eq_canonical_of_value {j v : Json} (h : Decode.value j = .ok v) : v = j.canonical := by
  unfold Decode.value at h
  split_ifs at h
  exact (Except.ok.inj h).symm

theorem canonical_eq_null {j : Json} : j.canonical = null ↔ j = null := by
  cases j <;> simp [canonical]

theorem steady_option {d : Decoder α} (hd : d.Steady) : (Decode.option d).Steady := by
  intro j h
  by_cases hj : j = null
  · rw [hj]
    rfl
  · unfold Decode.option
    split
    · exact absurd (canonical_eq_null.mp ‹_›) hj
    · rw [hd h]

/-! ## Fields -/

/-- The value of a source. -/
def Source.canonical : Source → Source
  | .members ms => .members (canonicalMembers ms [])
  | .items js => .items (canonicalItems js)

/-- Whether a source was read in full. -/
def Source.inRange : Source → Bool
  | .members ms => inRangeMembers ms
  | .items js => inRangeItems js

/-- Whether a source has several members with a name. -/
def Source.repeats (name : String) : Source → Bool
  | .members ms => 1 < countName name ms
  | .items _ => false

namespace Fields

variable {record key : String} {start : Nat} {d : Decoder α} {names names' : List String}

/-- Fields with some names that do not tell a source from its value, except that they refuse one
that repeats them. -/
structure Follows (f : Fields α) (names : List String) : Prop where
  agree {record : String} {start : Nat} {source : Source} {a : α} (hr : source.inRange = true)
    (hn : ∀ n ∈ names, source.repeats n = false)
    (h : f.run record start source.canonical = .ok a) : f.run record start source = .ok a
  refuse {record : String} {start : Nat} {source : Source} {n : String} (hn : n ∈ names)
    (h : source.repeats n = true) (a : α) : f.run record start source ≠ .ok a

theorem length_occurrences (name : String) (ms : List (String × Json)) :
    (occurrences name ms).length = countName name ms := by
  rw [← List.length_map (·.1), map_fst_occurrences, List.length_map, countName,
    List.countP_eq_length_filter]

/-- What a field of an object is decoded to: it must not be repeated. -/
theorem run_members_eq_ok {ms : List (String × Json)} {absent beyond : Option α} {a : α} :
    (field key d absent beyond).run record start (.members ms) = .ok a ↔
      countName key ms ≤ 1 ∧
        (ms.lookup key = none ∧ absent = some a ∨ ∃ j, ms.lookup key = some j ∧ d j = .ok a) := by
  rw [← length_occurrences, head_occurrences]
  simp only [field]
  cases occurrences key ms with
  | nil => cases absent <;> simp
  | cons first others =>
    obtain ⟨j, i⟩ := first
    cases others <;> cases hd : d j <;> simp [hd]

theorem follows_field {absent beyond : Option α} (hd : d.Steady) :
    Follows (field key d absent beyond) [key] where
  agree {record start source a} hr hn h := by
    cases source with
    | members ms =>
      have hr : ∀ m ∈ ms, m.2.inRange = true := inRangeMembers_eq_true.mp hr
      have honce : countName key ms ≤ 1 := by
        simpa [Source.repeats] using hn key List.mem_cons_self
      obtain ⟨-, h⟩ := run_members_eq_ok.mp h
      rw [lookup_canonicalMembers_of_once honce] at h
      refine run_members_eq_ok.mpr ⟨honce, ?_⟩
      rcases h with ⟨hnone, ha⟩ | ⟨j, hj, ha⟩
      · exact .inl ⟨Option.map_eq_none_iff.mp hnone, ha⟩
      · obtain ⟨j, hj₀, rfl⟩ := Option.map_eq_some_iff.mp hj
        exact .inr ⟨j, hj₀, (hd (hr _ (Assoc.mem_of_lookup hj₀))) ▸ ha⟩
    | items js =>
      have hr : ∀ j ∈ js, j.inRange = true := inRangeItems_eq_true.mp hr
      simp only [field, Source.canonical, canonicalItems_eq_map, List.getElem?_map] at h ⊢
      cases hj : js[start]? with
      | none => rwa [hj] at h
      | some j =>
        rw [hj, Option.map_some] at h
        simp only [hd (hr j (List.mem_of_getElem? hj))] at h ⊢
        exact h
  refuse {record start source n} hn h a hok := by
    obtain rfl := List.mem_singleton.mp hn
    cases source with
    | members ms =>
      have honce := (run_members_eq_ok.mp hok).1
      have hmany : 1 < countName n ms := by simpa [Source.repeats] using h
      omega
    | items js => cases h

theorem follows_pure (a : α) : Follows (Fields.pure a) [] where
  agree _ _ h := h
  refuse hn := nomatch hn

theorem follows_seq {f : Fields (α → β)} {x : Fields α} (hf : f.Follows names)
    (hx : x.Follows names') : Follows (f <*> x) (names ++ names') where
  agree hr hn h := by
    obtain ⟨g, a, hg, ha, rfl⟩ := run_seq h
    exact run_seq_eq (hf.agree hr (fun n hn' => hn n (List.mem_append_left _ hn')) hg)
      (hx.agree hr (fun n hn' => hn n (List.mem_append_right _ hn')) ha)
  refuse hn h b hok := by
    obtain ⟨g, a, hg, ha, -⟩ := run_seq hok
    rcases List.mem_append.mp hn with hn | hn
    · exact hf.refuse hn h g hg
    · exact hx.refuse hn h a ha

theorem follows_map {f : α → β} {x : Fields α} (hx : x.Follows names) : Follows (f <$> x) names :=
  follows_seq (follows_pure f) hx

/-! ## Records -/

namespace Follows

variable {f : Fields α} {j : Json} {a : α}

/-- **Values and documents.** What is decoded from the value of a document that repeats none of the
fields is decoded from the document. -/
theorem record_of_canonical (hf : f.Follows names) (hr : j.inRange = true)
    (hn : ∀ n ∈ names, j.repeats n = false) (h : Fields.record record f j.canonical = .ok a) :
    Fields.record record f j = .ok a := by
  cases j with
  | obj ms =>
    have hcanonical := endsWhole_of_inRange (inRange_canonical hr)
    have hrun : f.run (recordText record f.count) 0 (.members (canonicalMembers ms [])) = .ok a := by
      simp only [Fields.record, canonical, breakOff, hcanonical, Bool.false_eq_true, if_false] at h
      cases hf : f.run (recordText record f.count) 0 (.members (canonicalMembers ms [])) with
      | error e => rw [hf] at h; cases h
      | ok b => rw [hf] at h; cases h; rfl
    have hrange : (Source.members ms).inRange = true := hr
    exact record_eq_of_run (endsWhole_of_inRange hr) (hf.agree hrange hn hrun)
  | arr js =>
    simp only [Fields.record, canonical, canonicalItems_eq_map, List.length_map] at h ⊢
    split at h <;> rename_i b hrun
    · cases h
    · have hrange : (Source.items js).inRange = true := hr
      have hrun' := hf.agree hrange (fun _ _ => rfl)
        (by rw [Source.canonical, canonicalItems_eq_map]; exact hrun)
      rw [hrun']
      exact h
  | null | bool | num | str => cases h

/-- A document that repeats a field is not decoded. -/
theorem record_ne_ok (hf : f.Follows names) {n : String} (hn : n ∈ names) (h : j.repeats n = true) :
    Fields.record record f j ≠ .ok a := by
  intro hok
  cases j with
  | obj ms =>
    simp only [Fields.record] at hok
    unfold breakOff at hok
    cases hrun : f.run (recordText record f.count) 0 (.members ms) with
    | error e =>
      rw [hrun] at hok
      split_ifs at hok <;> cases hok
    | ok b =>
      have hrepeats : (Source.members ms).repeats n = true := h
      exact hf.refuse hn hrepeats b hrun
  | null | bool | num | str | arr => cases h

end Follows

end Fields

end DiagnosticBroker.Json
