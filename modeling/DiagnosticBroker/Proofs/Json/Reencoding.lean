import DiagnosticBroker.Proofs.Json.Values

/-!
# What was decoded is encoded so that it is decoded to the same

Many documents stand for one value of a type: members in any order, further members, members that
are left out or null, an array in place of an object. Encoding picks one of them. It is stable if
what was decoded, from whatever document, is decoded again from the encoding.

A `Fields.Layout` says what a record writes for its fields. It is put together as the decoder is,
and `Fields.Keeps` relates the two: what the fields are decoded to is decoded again from every
object that says what the layout writes, in its own spelling. A new type is stable by one lemma for
each field, and `rfl` for its encoder.

Results:
* `Spelling`: the ways in which an encoding is spelled, as it is and as the value it stands for.
* `stable_plain`, `stable_value`, `stable_list`, `stable_option`: decoders of single values.
* `keeps_field`, `Fields.Keeps.map`, `Fields.Keeps.seq`: fields, and what is put together of them.
* `keeps_required`, `keeps_defaulted`, `keeps_optional`, `keeps_omissible`, `keeps_nullable`: the
  kinds of fields.
* `Fields.Keeps.record`: records.
* `Stable.reencodes`: what a stable encoding comes to, also as a text.
-/

namespace DiagnosticBroker.Json

variable {α β : Type} {depth : Nat}

/-! ## Spellings -/

/-- A way to spell every document, so that it says the same of each name that it does not repeat. -/
structure Spelling (c : Json → Json) : Prop where
  null : c .null = .null
  bool (b : Bool) : c (.bool b) = .bool b
  num (n : Number) : c (.num n) = .num n
  str (s : String) : c (.str s) = .str s
  arr (js : List Json) : c (.arr js) = .arr (js.map c)
  obj (ms : List (String × Json)) : ∃ ms', c (.obj ms) = .obj ms' ∧ ∀ name,
    countName name ms ≤ 1 → countName name ms' ≤ 1 ∧ ms'.lookup name = (ms.lookup name).map c
  canonical (j : Json) : (c j).canonical = j.canonical
  inRange {j : Json} : j.inRange = true → (c j).inRange = true

theorem spelling_id : Spelling id where
  null := rfl
  bool _ := rfl
  num _ := rfl
  str _ := rfl
  arr js := by rw [List.map_id, id]
  obj ms := ⟨ms, rfl, fun name h => ⟨h, by rw [Option.map_id, id]⟩⟩
  canonical _ := rfl
  inRange h := h

theorem spelling_canonical : Spelling canonical where
  null := rfl
  bool _ := rfl
  num _ := rfl
  str _ := rfl
  arr js := by rw [Json.canonical, canonicalItems_eq_map]
  obj ms := ⟨canonicalMembers ms [], rfl, fun name h =>
    ⟨countName_le_one (sorted_canonicalMembers List.Pairwise.nil) name,
      lookup_canonicalMembers_of_once h⟩⟩
  canonical := canonical_canonical
  inRange := inRange_canonical

theorem Spelling.ne_null {c : Json → Json} (hc : Spelling c) {j : Json} (h : j ≠ .null) :
    c j ≠ .null := by
  intro heq
  have hnull := hc.canonical j
  rw [heq] at hnull
  exact h (canonical_eq_null.mp hnull.symm)

/-! ## Single values -/

/-- What is decoded from a document that is nested within a bound is encoded within it, and decoded
to the same from every spelling of the encoding. -/
structure Stable (depth : Nat) (d : Decoder α) (encode : α → Json) : Prop where
  inRange {j a} : d j = .ok a → (encode a).inRange = true
  sound {j a} : d j = .ok a → j.Sound depth → (encode a).Sound depth
  decode {j a c} : d j = .ok a → Spelling c → d (c (encode a)) = .ok a

/-- A value without parts, of which there is only one spelling. -/
inductive IsPlain : Json → Prop
  | bool (b : Bool) : IsPlain (.bool b)
  | str (s : String) : IsPlain (.str s)
  | int (i : Int) (h : Word.minI64 ≤ i ∧ i ≤ Word.maxU64) : IsPlain (.int i)

namespace IsPlain

variable {j : Json}

theorem inRange (h : IsPlain j) : j.inRange = true := by cases h <;> rfl

theorem sound (h : IsPlain j) : j.Sound depth := by
  cases h with
  | bool | str => exact ⟨Nat.zero_le _, nofun⟩
  | int i hi =>
    refine ⟨Nat.zero_le _, fun n hn => ?_⟩
    rw [List.mem_singleton.mp hn]
    exact hi

theorem spelled {c : Json → Json} (h : IsPlain j) (hc : Spelling c) : c j = j := by
  cases h with
  | bool b => exact hc.bool b
  | str s => exact hc.str s
  | int i => exact hc.num _

end IsPlain

/-- A decoder that takes what a plain value encodes. -/
theorem stable_plain {d : Decoder α} {encode : α → Json}
    (h : ∀ {j a}, d j = .ok a → IsPlain (encode a) ∧ d (encode a) = .ok a) :
    Stable depth d encode where
  inRange hd := (h hd).1.inRange
  sound hd _ := (h hd).1.sound
  decode hd hc := by rw [(h hd).1.spelled hc, (h hd).2]

theorem stable_string : Stable depth Decode.string .str :=
  stable_plain fun _ => ⟨.str _, rfl⟩

theorem stable_bool : Stable depth Decode.bool .bool :=
  stable_plain fun _ => ⟨.bool _, rfl⟩

theorem stable_natural {high : Nat} {type : String} (h : high ≤ Word.maxU64) :
    Stable depth (Decode.natural high type) .nat :=
  stable_plain fun {j a} hd => by
    have hle := le_of_natural hd
    have hsame : Json.nat a = j := faithful_natural high type hd
    exact ⟨.int a ⟨by simp only [Word.minI64]; omega, by omega⟩, hsame ▸ hd⟩

theorem stable_integer {low high : Int} {type : String} (hlow : Word.minI64 ≤ low)
    (hhigh : high ≤ Word.maxU64) : Stable depth (Decode.integer low high type) .int :=
  stable_plain fun {j a} hd => by
    unfold Decode.integer at hd
    split at hd
    · split_ifs at hd with hi
      cases hd
      have hbounds := hi
      simp only [Bool.and_eq_true, decide_eq_true_eq] at hbounds
      exact ⟨.int _ ⟨by omega, by omega⟩, by simp only [Decode.integer, Json.int, hi, if_true]⟩
    · cases hd

theorem inRange_of_value {j v : Json} (h : Decode.value j = .ok v) : v.inRange = true := by
  unfold Decode.value at h
  split_ifs at h with hr
  cases h
  exact inRange_canonical hr

/-- An untyped value is the value of the document. -/
theorem stable_value : Stable depth Decode.value id where
  inRange hd := inRange_of_value hd
  sound {j a} hd hs := by
    rw [eq_canonical_of_value hd]
    exact ⟨Nat.le_trans (nesting_canonical_le j) hs.nesting,
      fun n hn => hs.numbers n (numbers_canonical_subset j hn)⟩
  decode {j a c} hd hc := by
    have hr : (c (id a)).inRange = true := hc.inRange (inRange_of_value hd)
    rw [Decode.value, if_pos hr, hc.canonical, eq_canonical_of_value hd, id, canonical_canonical]

section

variable {d : Decoder α} {js : List Json} {as : List α}

/-- Every value of a list is decoded from an item. -/
theorem exists_of_items (h : Decode.items d js = .ok as) : ∀ a ∈ as, ∃ j ∈ js, d j = .ok a := by
  induction js generalizing as with
  | nil =>
    cases h
    nofun
  | cons j js ih =>
    rw [Decode.items] at h
    cases hd : d j with
    | error e =>
      rw [hd] at h
      cases h
    | ok b =>
      cases hi : Decode.items d js with
      | error e =>
        rw [hd, hi] at h
        cases h
      | ok bs =>
        rw [hd, hi] at h
        cases h
        rintro a (_ | ⟨_, ha⟩)
        · exact ⟨j, List.mem_cons_self, hd⟩
        · obtain ⟨j', hj, hok⟩ := ih hi a ha
          exact ⟨j', List.mem_cons_of_mem _ hj, hok⟩

theorem items_map {f : α → Json} (h : ∀ a ∈ as, d (f a) = .ok a) :
    Decode.items d (as.map f) = .ok as := by
  induction as with
  | nil => rfl
  | cons a as ih =>
    rw [List.map_cons, Decode.items, h a List.mem_cons_self,
      ih fun b hb => h b (List.mem_cons_of_mem _ hb)]

/-- A list of values. -/
theorem stable_list {encode : α → Json} (h : Stable depth d encode) :
    Stable (depth + 1) (Decode.list d) fun as => .arr (as.map encode) := by
  have hitems : ∀ {j as}, Decode.list d j = .ok as →
      ∃ js, j = .arr js ∧ Decode.items d js = .ok as := by
    intro j as hd
    cases j with
    | arr js => exact ⟨js, rfl, hd⟩
    | null | bool | num | str | obj => cases hd
  refine ⟨fun hd => ?_, fun hd hs => ?_, fun {j as c} hd hc => ?_⟩ <;>
    obtain ⟨js, rfl, hok⟩ := hitems hd
  · refine inRangeItems_eq_true.mpr fun v hv => ?_
    obtain ⟨a, ha, rfl⟩ := List.mem_map.mp hv
    obtain ⟨j, -, hj⟩ := exists_of_items hok a ha
    exact h.inRange hj
  · refine sound_arr fun v hv => ?_
    obtain ⟨a, ha, rfl⟩ := List.mem_map.mp hv
    obtain ⟨j, hmem, hj⟩ := exists_of_items hok a ha
    obtain ⟨i, hi⟩ := List.getElem?_of_mem hmem
    exact h.sound hj (sound_field (k := ⟨i, ""⟩) hs hi)
  · rw [hc.arr, List.map_map]
    refine items_map fun a ha => ?_
    obtain ⟨j, -, hj⟩ := exists_of_items hok a ha
    exact h.decode hj hc

end

/-- What encodes a value that is not null is not null. -/
def NotNull (d : Decoder α) (encode : α → Json) : Prop :=
  ∀ j a, j ≠ .null → d j = .ok a → encode a ≠ .null

/-- What a value is encoded as that may be null. -/
def encodeOption (encode : α → Json) : Option α → Json
  | some a => encode a
  | none => .null

theorem stable_option {d : Decoder α} {encode : α → Json} (h : Stable depth d encode)
    (hn : NotNull d encode) : Stable depth (Decode.option d) (encodeOption encode) where
  inRange hd := by
    rcases option_eq_ok hd with ⟨-, rfl⟩ | ⟨-, b, hb, rfl⟩
    · rfl
    · exact h.inRange hb
  sound hd hs := by
    rcases option_eq_ok hd with ⟨-, rfl⟩ | ⟨-, b, hb, rfl⟩
    · exact ⟨Nat.zero_le _, nofun⟩
    · exact h.sound hb hs
  decode {j a c} hd hc := by
    rcases option_eq_ok hd with ⟨-, rfl⟩ | ⟨hne, b, hb, rfl⟩
    · rw [encodeOption, hc.null]
      rfl
    · exact option_of_ne_null (hc.ne_null (hn j b hne hb)) (h.decode hb hc)

/-! ## Fields -/

namespace Fields

/-- What a record writes for consecutive fields: the values that are decoded, what is built of them,
and for each field its name and what is written, if anything. -/
structure Layout (α : Type) where
  Raw : Type
  build : Raw → α
  names : List String
  entries : Raw → List (String × Option Json)
  names_eq (r : Raw) : (entries r).map (·.1) = names

namespace Layout

/-- A single field. -/
def field (key : String) (write : α → Option Json) : Layout α where
  Raw := α
  build := id
  names := [key]
  entries a := [(key, write a)]
  names_eq _ := rfl

/-- The same fields, of which something else is built. -/
def map (g : α → β) (l : Layout α) : Layout β where
  Raw := l.Raw
  build := g ∘ l.build
  names := l.names
  entries := l.entries
  names_eq := l.names_eq

/-- The fields of both sides. -/
def seq (l : Layout (α → β)) (m : Layout α) : Layout β where
  Raw := l.Raw × m.Raw
  build r := l.build r.1 (m.build r.2)
  names := l.names ++ m.names
  entries r := l.entries r.1 ++ m.entries r.2
  names_eq r := by rw [List.map_append, l.names_eq, m.names_eq]

/-- The members of what is written. -/
def members (es : List (String × Option Json)) : List (String × Json) :=
  es.filterMap fun e => e.2.map fun j => (e.1, j)

theorem mem_members {es : List (String × Option Json)} {m : String × Json} :
    m ∈ members es ↔ (m.1, some m.2) ∈ es := by
  rw [members, List.mem_filterMap]
  constructor
  · rintro ⟨⟨name, j?⟩, he, hm⟩
    obtain ⟨j, rfl, rfl⟩ := Option.map_eq_some_iff.mp hm
    exact he
  · exact fun h => ⟨_, h, rfl⟩

end Layout

/-- An object says what is written, in some spelling, and repeats no name. -/
def Says (c : Json → Json) (ms : List (String × Json)) (es : List (String × Option Json)) : Prop :=
  ∀ e ∈ es, countName e.1 ms ≤ 1 ∧ ms.lookup e.1 = e.2.map c

/-- The members that are written say what is written, if the names are different. -/
theorem says_members {es : List (String × Option Json)} (h : (es.map (·.1)).Nodup) :
    Says id (Layout.members es) es := by
  induction es with
  | nil => nofun
  | cons e es ih =>
    obtain ⟨name, j?⟩ := e
    obtain ⟨hnot, hrest⟩ := List.nodup_cons.mp h
    have hothers : ∀ m ∈ Layout.members es, m.1 ≠ name := fun m hm heq =>
      hnot (heq ▸ List.mem_map.mpr ⟨_, Layout.mem_members.mp hm, rfl⟩)
    have hnone : countName name (Layout.members es) = 0 :=
      List.countP_eq_zero.mpr fun m hm => by simpa using hothers m hm
    have hlookup : (Layout.members es).lookup name = none :=
      List.lookup_eq_none_iff.mpr fun m hm => by simpa using (hothers m hm).symm
    cases j? with
    | none =>
      rintro e (_ | ⟨_, he⟩)
      · exact ⟨hnone ▸ Nat.zero_le 1, hlookup⟩
      · exact ih hrest e he
    | some j =>
      have hcons : Layout.members ((name, some j) :: es) = (name, j) :: Layout.members es := rfl
      rw [hcons]
      rintro e (_ | ⟨_, he⟩)
      · refine ⟨?_, List.lookup_cons_self⟩
        rw [countName, List.countP_cons_of_pos (by simp), ← countName, hnone]
      · have hne : e.1 ≠ name := fun heq => hnot (heq ▸ List.mem_map.mpr ⟨e, he, rfl⟩)
        obtain ⟨honce, hsays⟩ := ih hrest e he
        refine ⟨?_, ?_⟩
        · rw [countName, List.countP_cons_of_neg (by simpa using hne.symm)]
          exact honce
        · rw [List.lookup_cons, beq_eq_false_iff_ne.mpr hne]
          exact hsays

/-- What fields are decoded to is written as a layout says, and decoded from what was written. -/
structure Kept (depth : Nat) (f : Fields α) (l : Layout α) (source : Source) (a : α) (r : l.Raw) :
    Prop where
  build : a = l.build r
  inRange : ∀ e ∈ l.entries r, ∀ j ∈ e.2, j.inRange = true
  sound : (∀ k j, source.field? k = some j → j.Sound depth) →
    ∀ e ∈ l.entries r, ∀ j ∈ e.2, j.Sound depth
  run {c : Json → Json} {ms : List (String × Json)} (hc : Spelling c)
    (hs : Says c ms (l.entries r)) (record : String) (start : Nat) :
    f.run record start (.members ms) = .ok a

/-- Whatever fields are decoded to, from an object or an array, is kept by a layout. -/
def Keeps (depth : Nat) (f : Fields α) (l : Layout α) : Prop :=
  ∀ record start source a, f.run record start source = .ok a → ∃ r, Kept depth f l source a r

theorem Keeps.map {x : Fields α} {l : Layout α} (hx : Keeps depth x l) (g : α → β) :
    Keeps depth (g <$> x) (l.map g) := by
  intro record start source b h
  obtain ⟨a, ha, rfl⟩ := run_map h
  obtain ⟨r, hr⟩ := hx _ _ _ _ ha
  exact ⟨r, congrArg g hr.build, hr.inRange, hr.sound, fun hc hs record start =>
    run_map_eq (hr.run hc hs record start)⟩

theorem Keeps.seq {f : Fields (α → β)} {x : Fields α} {l : Layout (α → β)} {m : Layout α}
    (hf : Keeps depth f l) (hx : Keeps depth x m) : Keeps depth (f <*> x) (l.seq m) := by
  intro record start source b h
  obtain ⟨g, a, hg, ha, rfl⟩ := run_seq h
  obtain ⟨r, hr⟩ := hf _ _ _ _ hg
  obtain ⟨r', hr'⟩ := hx _ _ _ _ ha
  refine ⟨(r, r'), ?_, fun e he => ?_, fun hsource e he => ?_, fun hc hs record start => ?_⟩
  · rw [hr.build, hr'.build]
    rfl
  · rcases List.mem_append.mp he with he | he
    · exact hr.inRange e he
    · exact hr'.inRange e he
  · rcases List.mem_append.mp he with he | he
    · exact hr.sound hsource e he
    · exact hr'.sound hsource e he
  · exact run_seq_eq
      (hr.run hc (fun e he => hs e (List.mem_append_left _ he)) record start)
      (hr'.run hc (fun e he => hs e (List.mem_append_right _ he)) record _)

/-! ## Single fields -/

/-- What is written for a field, if anything, is decoded to its value. -/
structure Restores (d : Decoder α) (absent : Option α) (a : α) (v? : Option Json) : Prop where
  inRange : ∀ v ∈ v?, v.inRange = true
  decode {c : Json → Json} (hc : Spelling c) : ∀ v ∈ v?, d (c v) = .ok a
  absent : v? = none → absent = some a

section

variable {key : String} {d : Decoder α} {absent beyond : Option α}

theorem keeps_field {write : α → Option Json}
    (hd : ∀ j a, d j = .ok a → Restores d absent a (write a))
    (hs : ∀ j a, d j = .ok a → j.Sound depth → ∀ v ∈ write a, v.Sound depth)
    (ha : ∀ a, absent = some a ∨ beyond = some a →
      Restores d absent a (write a) ∧ ∀ v ∈ write a, v.Sound depth) :
    Keeps depth (field key d absent beyond) (.field key write) := by
  intro record start source a h
  -- A value that was not decoded from a field is the one for a document that leaves it out.
  have hrestores : Restores d absent a (write a) := by
    rcases run_field h with ⟨-, habsent⟩ | ⟨j, -, hj⟩
    · exact (ha a habsent).1
    · exact hd j a hj
  refine ⟨a, rfl, fun e he => ?_, fun hsource e he => ?_, fun {c ms} hc hsays record start => ?_⟩
  · rw [List.mem_singleton.mp he]
    exact hrestores.inRange
  · rw [List.mem_singleton.mp he]
    rcases run_field h with ⟨-, habsent⟩ | ⟨j, hfield, hj⟩
    · exact (ha a habsent).2
    · exact hs j a hj (hsource _ _ hfield)
  · obtain ⟨honce, hlookup⟩ := hsays _ (List.mem_singleton.mpr rfl)
    refine run_members_eq_ok.mpr ⟨honce, ?_⟩
    cases hw : write a with
    | none =>
      rw [hw] at hlookup
      exact .inl ⟨hlookup, hrestores.absent hw⟩
    | some v =>
      rw [hw] at hlookup
      exact .inr ⟨c v, hlookup, hrestores.decode hc v hw⟩

/-- A field that is always written. -/
theorem keeps_written {encode : α → Json} (h : Stable depth d encode)
    (ha : ∀ a, absent = some a ∨ beyond = some a → ∃ j, d j = .ok a ∧ j.Sound depth) :
    Keeps depth (field key d absent beyond) (.field key fun a => some (encode a)) := by
  have hrestores : ∀ j a, d j = .ok a → Restores d absent a (some (encode a)) := by
    intro j a hj
    refine ⟨?_, fun hc => ?_, nofun⟩
    · rintro v ⟨⟩
      exact h.inRange hj
    · rintro v ⟨⟩
      exact h.decode hj hc
  refine keeps_field hrestores (fun j a hj hs => ?_) fun a habsent => ?_
  · rintro v ⟨⟩
    exact h.sound hj hs
  · obtain ⟨j, hj, hs⟩ := ha a habsent
    refine ⟨hrestores j a hj, ?_⟩
    rintro v ⟨⟩
    exact h.sound hj hs

theorem keeps_required {encode : α → Json} (h : Stable depth d encode) :
    Keeps depth (required key d) (.field key fun a => some (encode a)) :=
  keeps_written h fun a ha => by rcases ha with ha | ha <;> cases ha

/-- A field with a default that is decoded from some document. -/
theorem keeps_defaulted {encode : α → Json} {default : α} {j : Json} (h : Stable depth d encode)
    (hj : d j = .ok default) (hs : j.Sound depth) :
    Keeps depth (defaulted key d default) (.field key fun a => some (encode a)) :=
  keeps_written h fun a ha => by
    have ha : default = a := by rcases ha with ha | ha <;> exact Option.some.inj ha
    exact ⟨j, ha ▸ hj, hs⟩

theorem keeps_count {high n : Nat} {type : String} (hn : n ≤ high) (h : high ≤ Word.maxU64) :
    Keeps depth (defaulted key (Decode.natural high type) n) (.field key fun a => some (.nat a)) :=
  keeps_defaulted (j := .nat n) (stable_natural h)
    (by simp [Decode.natural, Json.nat, hn])
    (IsPlain.int n ⟨by simp only [Word.minI64]; omega, by omega⟩).sound

theorem keeps_switch {b : Bool} :
    Keeps depth (defaulted key Decode.bool b) (.field key fun a => some (.bool a)) :=
  keeps_defaulted stable_bool rfl (IsPlain.bool b).sound

/-- A list that is empty if it is left out. -/
theorem keeps_table {encode : α → Json} (h : Stable depth d encode) :
    Keeps (depth + 1) (defaulted key (Decode.list d) [])
      (.field key fun as => some (.arr (as.map encode))) :=
  keeps_defaulted (stable_list h) rfl (sound_arr (List.forall_mem_nil _))

/-- A record whose default is what an empty object is decoded to. -/
theorem keeps_section {encode : α → Json} {default : α} (h : Stable (depth + 1) d encode)
    (hd : d (.obj []) = .ok default) :
    Keeps (depth + 1) (defaulted key d default) (.field key fun a => some (encode a)) :=
  keeps_defaulted h hd (sound_obj (List.forall_mem_nil _))

/-- A field that is only written if there is a value. -/
theorem keeps_skipped {encode : α → Json} {beyond : Option (Option α)} (h : Stable depth d encode)
    (hn : NotNull d encode) (hb : ∀ a, beyond = some a → a = none) :
    Keeps depth (field key (Decode.option d) (some none) beyond)
      (.field key fun a => a.map encode) := by
  have hnone : Restores (Decode.option d) (some none) none none :=
    ⟨nofun, fun _ => nofun, fun _ => rfl⟩
  refine keeps_field (fun j a hj => ?_) (fun j a hj hs => ?_) fun a ha => ?_
  · rcases option_eq_ok hj with ⟨-, rfl⟩ | ⟨hne, b, hb, rfl⟩
    · exact hnone
    · refine ⟨?_, fun hc => ?_, nofun⟩
      · rintro v ⟨⟩
        exact h.inRange hb
      · rintro v ⟨⟩
        exact option_of_ne_null (hc.ne_null (hn j b hne hb)) (h.decode hb hc)
  · rcases option_eq_ok hj with ⟨-, rfl⟩ | ⟨-, b, hb, rfl⟩
    · nofun
    · rintro v ⟨⟩
      exact h.sound hb hs
  · obtain rfl : a = none := by
      rcases ha with ha | ha
      · exact (Option.some.inj ha).symm
      · exact hb a ha
    exact ⟨hnone, nofun⟩

theorem keeps_optional {encode : α → Json} (h : Stable depth d encode) (hn : NotNull d encode) :
    Keeps depth (optional key d) (.field key fun a => a.map encode) :=
  keeps_skipped h hn nofun

/-- A field that also an array may leave out. -/
theorem keeps_omissible {encode : α → Json} (h : Stable depth d encode) (hn : NotNull d encode) :
    Keeps depth (defaulted key (Decode.option d) none) (.field key fun a => a.map encode) :=
  keeps_skipped h hn fun _ ha => (Option.some.inj ha).symm

/-- A field that is written as null if there is no value. -/
theorem keeps_nullable {encode : α → Json} (h : Stable depth d encode) (hn : NotNull d encode) :
    Keeps depth (optional key d) (.field key fun a => some (encodeOption encode a)) :=
  keeps_written (stable_option h hn) fun a ha => by
    obtain rfl : none = a := by rcases ha with ha | ha <;> cases ha; rfl
    exact ⟨.null, rfl, Nat.zero_le _, nofun⟩

end

/-! ## Records -/

/-- **Records.** A record that is written as its layout says, with different names, is stable. -/
theorem Keeps.record {name : String} {f : Fields α} {l : Layout α} {encode : α → Json}
    (hf : Keeps depth f l) (hn : l.names.Nodup)
    (he : ∀ r, encode (l.build r) = .obj (Layout.members (l.entries r))) :
    Stable (depth + 1) (Fields.record name f) encode := by
  have hkept : ∀ {j a}, Fields.record name f j = .ok a → ∃ source r, Kept depth f l source a r ∧
      encode a = .obj (Layout.members (l.entries r)) ∧ ∀ k, source.field? k = j.field? k := by
    intro j a h
    obtain ⟨source, hrun, hsource⟩ := record_eq_ok h
    obtain ⟨r, hr⟩ := hf _ _ _ _ hrun
    exact ⟨source, r, hr, hr.build ▸ he r, hsource⟩
  have hrange : ∀ {j a}, Fields.record name f j = .ok a → (encode a).inRange = true := by
    intro j a h
    obtain ⟨source, r, hr, hencode, -⟩ := hkept h
    rw [hencode]
    exact inRangeMembers_eq_true.mpr fun m hm => hr.inRange _ (Layout.mem_members.mp hm) _ rfl
  refine ⟨hrange, fun h hs => ?_, fun {j a c} h hc => ?_⟩
  · obtain ⟨source, r, hr, hencode, hsource⟩ := hkept h
    rw [hencode]
    refine sound_obj fun m hm => hr.sound (fun k v hv => ?_) _ (Layout.mem_members.mp hm) _ rfl
    exact sound_field hs (hsource k ▸ hv)
  · obtain ⟨source, r, hr, hencode, -⟩ := hkept h
    -- The names are different, so the decoder finds of each field what the layout has written.
    have hnames : ((l.entries r).map (·.1)).Nodup := l.names_eq r ▸ hn
    have hwritten := hrange h
    rw [hencode] at hwritten ⊢
    obtain ⟨ms, hms, hlookup⟩ := hc.obj (Layout.members (l.entries r))
    have hspelled := hc.inRange hwritten
    rw [hms] at hspelled ⊢
    refine record_eq_of_run (endsWhole_of_inRange hspelled) (hr.run hc (fun e he => ?_) _ _)
    obtain ⟨honce, hsays⟩ := says_members hnames e he
    rw [Option.map_id, id] at hsays
    rw [← hsays]
    exact hlookup e.1 honce

end Fields

/-! ## Texts -/

/-- An encoding that is written is read, and decoded to the same, if the doubles that it holds are
read back. -/
theorem Stable.read {d : Decoder α} {encode : α → Json} (h : Stable maxDepth d encode) {j : Json}
    {a : α} (hd : d j = .ok a) (hs : j.Sound maxDepth)
    (hx : ∀ x, .float x ∈ (encode a).numbers → (Number.float x).Rereads) :
    (readDocument? (encode a).write).map d = some (.ok a) ∧
      (read? (encode a).write).map d = some (.ok a) := by
  have hsound := h.sound hd hs
  have hrereads : ∀ n ∈ (encode a).numbers, n.Rereads := by
    intro n hn
    cases n with
    | int i =>
      obtain ⟨hlow, hhigh⟩ := hsound.numbers _ hn
      exact fun rest hr => readNumber_int hlow hhigh hr
    | float x => exact hx x hn
  rw [readDocument?_write hsound.nesting hrereads,
    read?_write hsound.nesting hrereads (h.inRange hd)]
  exact ⟨congrArg some (h.decode hd spelling_id), congrArg some (h.decode hd spelling_canonical)⟩

/-- What is decoded from any document is decoded again from its encoding, as it is and as the value
that it stands for, and also from its text, if the document can be read itself and the doubles that
are kept of it are read back. -/
def Reencodes (d : Decoder α) (encode : α → Json) : Prop :=
  ∀ j a, d j = .ok a → d (encode a) = .ok a ∧ d (encode a).canonical = .ok a ∧
    (j.Sound maxDepth → (∀ x, .float x ∈ (encode a).numbers → (Number.float x).Rereads) →
      (readDocument? (encode a).write).map d = some (.ok a) ∧
        (read? (encode a).write).map d = some (.ok a))

theorem Stable.reencodes {d : Decoder α} {encode : α → Json} (h : Stable maxDepth d encode) :
    Reencodes d encode := fun _ _ hd =>
  ⟨h.decode hd spelling_id, h.decode hd spelling_canonical, h.read hd⟩

end DiagnosticBroker.Json
