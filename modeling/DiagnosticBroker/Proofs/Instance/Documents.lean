import DiagnosticBroker.Proofs.Instance.Connection

/-!
# Opening and closing documents

What `openDocument` and `closeDocument` do to the documents of an instance, to what is announced of
them, and to the collector, said once for all that follows.

Results:
* `opens_of_openDocument`, `refuses_of_openDocument`: what an opening does that succeeds or fails.
* `opens_of_canSend`, `refuses_of_not_canSend`: an opening succeeds if a frame can be queued, and
  fails if not.
* `closes_of_closeDocument`: what a closing does.
* `Opens.references`, `Closes.references`: what both do to the number of those who have it open.
-/

namespace DiagnosticBroker.Instance

variable {i j : Instance} {now : Time} {uri languageId text : String}

/-! ## Opening -/

/-- The version that opening a document announces. -/
def nextVersion (i : Instance) (uri : String) : Int :=
  match i.documents.lookup uri with
  | some d => Word.nextI32 d.version
  | none => 1

/-- How many callers have a document open. -/
def references (i : Instance) (uri : String) : Nat :=
  match i.documents.lookup uri with
  | some d => d.references
  | none => 0

/-- The collector, and nothing else, is replaced. -/
def withCollector (i : Instance) (c : Collector) : Instance := { i with collector := c }

theorem keeps_withCollector (i : Instance) (c : Collector) : Keeps i (i.withCollector c) :=
  .of_links rfl rfl id

theorem canSend_withCollector (i : Instance) (c : Collector) :
    (i.withCollector c).canSend = i.canSend :=
  canSend_congr rfl rfl

/-- What a waiter is registered for when a document is opened. -/
def registration (i : Instance) (now : Time) (uri : String) : Collector × Waiter :=
  i.collector.register now uri (i.nextVersion uri) (i.documents.lookup uri).isNone

/-- What opening a document does. -/
structure Opens (i : Instance) (now : Time) (uri : String) (j : Instance) (version : Int)
    (waiter : Waiter) : Prop extends Keeps i j where
  sends : i.canSend = true
  version_eq : version = i.nextVersion uri
  registered : i.registration now uri = (j.collector, waiter)
  documents : ∀ u, j.documents.lookup u =
    if u = uri then some ⟨version, Word.nextU32 (i.references uri)⟩ else i.documents.lookup u
  announcements : i.Linked → ∀ u, j.announcements u = i.announcements u ++
    if u = uri then [.next version (i.documents.lookup uri).isSome] else []

/-- What an opening does that fails: it registers a waiter and gives it back. -/
structure Refuses (i : Instance) (now : Time) (uri : String) (j : Instance) (fault : Fault) :
    Prop extends Keeps i j where
  cannotSend : i.canSend = false
  fault_eq : fault = .notConnected ∨ fault = i.gone
  collector : j.collector =
    (i.registration now uri).1.release (i.registration now uri).2
  documents : j.documents = i.documents
  announcements : ∀ u, j.announcements u = i.announcements u

theorem openDocument_eq (i : Instance) (now : Time) (uri languageId text : String) :
    i.openDocument now uri languageId text =
      let s := (i.withCollector (i.registration now uri).1).send
        (announcement uri languageId text (i.nextVersion uri) (i.documents.lookup uri).isSome)
      match s.2 with
      | .error f =>
        (s.1.withCollector (s.1.collector.release (i.registration now uri).2), .error f)
      | .ok () =>
        (s.1.putDocument uri ⟨i.nextVersion uri, Word.nextU32 (i.references uri)⟩,
          .ok (i.nextVersion uri, (i.registration now uri).2)) := by
  unfold openDocument registration nextVersion references
  cases i.documents.lookup uri <;> rfl

theorem about?_announcement (uri languageId text : String) (version : Int) (isOpen : Bool)
    (u : String) :
    Announcement.about? u (announcement uri languageId text version isOpen) =
      if u = uri then some (.next version isOpen) else none := by
  rw [Announcement.about?, Announcement.read?_announcement]
  by_cases h : u = uri
  · simp [h]
  · simp [h, Ne.symm h]

theorem opens_of_canSend (h : i.canSend = true) (now : Time) (uri languageId text : String) :
    ∃ j, i.openDocument now uri languageId text =
        (j, .ok (i.nextVersion uri, (i.registration now uri).2)) ∧
      Opens i now uri j (i.nextVersion uri) (i.registration now uri).2 := by
  rw [openDocument_eq]
  generalize hc : (i.registration now uri).1 = c
  generalize hm : announcement uri languageId text (i.nextVersion uri)
    (i.documents.lookup uri).isSome = m
  have hs : (i.withCollector c).canSend = true := (canSend_withCollector i c).trans h
  have hk₀ := keeps_withCollector i c
  have hk := hk₀.trans (keeps_send (i.withCollector c) m)
  have hd := documents_send (i.withCollector c) m
  have hcoll := collector_send (i.withCollector c) m
  have hann : i.Linked → ∀ u, ((i.withCollector c).send m).1.announcements u =
      i.announcements u ++ if u = uri then
        [.next (i.nextVersion uri) (i.documents.lookup uri).isSome] else [] := by
    intro hl u
    rw [announcements_send (hk₀.linked hl) hs, ← hm, about?_announcement]
    by_cases hu : u = uri
    · rw [if_pos hu, if_pos hu]
      rfl
    · rw [if_neg hu, if_neg hu]
      rfl
  obtain ⟨n, -, hsend⟩ := send_of_canSend hs m
  rw [hsend] at hk hd hcoll hann ⊢
  refine ⟨_, rfl, ?_⟩
  exact {
    toKeeps := hk.trans (.of_links rfl rfl id)
    sends := h
    version_eq := rfl
    registered := by rw [← hc]; rfl
    documents := fun u => Assoc.lookup_put uri u _ _
    announcements := hann }

theorem refuses_of_not_canSend (h : i.canSend = false) (now : Time)
    (uri languageId text : String) :
    ∃ j f, i.openDocument now uri languageId text = (j, .error f) ∧ Refuses i now uri j f := by
  rw [openDocument_eq]
  generalize hc : (i.registration now uri).1 = c
  generalize hm : announcement uri languageId text (i.nextVersion uri)
    (i.documents.lookup uri).isSome = m
  have hs : (i.withCollector c).canSend = false := (canSend_withCollector i c).trans h
  have hk := (keeps_withCollector i c).trans (keeps_send (i.withCollector c) m)
  have hd := documents_send (i.withCollector c) m
  have hcoll := collector_send (i.withCollector c) m
  have hann := announcements_send_of_not_canSend hs m
  obtain ⟨f, hf, hf'⟩ : ∃ f, ((i.withCollector c).send m).2 = .error f ∧
      (f = .notConnected ∨ f = i.gone) := by
    rcases send_of_not_canSend hs m with hsend | hsend
    · exact ⟨_, by rw [hsend], .inl rfl⟩
    · exact ⟨i.gone, by rw [hsend]; rfl, .inr rfl⟩
  generalize (i.withCollector c).send m = r at *
  obtain ⟨j, e⟩ := r
  simp only at hf hk hd hcoll hann ⊢
  subst hf
  refine ⟨_, f, rfl, ?_⟩
  exact {
    toKeeps := hk.trans (keeps_withCollector j _)
    cannotSend := h
    fault_eq := hf'
    collector := by
      change j.collector.release _ = _
      rw [hcoll, hc]
      rfl
    documents := hd
    announcements := hann }

/-- An opening that succeeds does what it should. -/
theorem opens_of_openDocument {version : Int} {waiter : Waiter}
    (h : i.openDocument now uri languageId text = (j, .ok (version, waiter))) :
    Opens i now uri j version waiter := by
  cases hs : i.canSend with
  | true =>
    obtain ⟨j', hj', hopens⟩ := opens_of_canSend hs now uri languageId text
    rw [hj'] at h
    cases h
    exact hopens
  | false =>
    obtain ⟨j', f, hj', -⟩ := refuses_of_not_canSend hs now uri languageId text
    rw [hj'] at h
    cases h

theorem refuses_of_openDocument {fault : Fault}
    (h : i.openDocument now uri languageId text = (j, .error fault)) :
    Refuses i now uri j fault := by
  cases hs : i.canSend with
  | true =>
    obtain ⟨j', hj', -⟩ := opens_of_canSend hs now uri languageId text
    rw [hj'] at h
    cases h
  | false =>
    obtain ⟨j', f, hj', hrefuses⟩ := refuses_of_not_canSend hs now uri languageId text
    rw [hj'] at h
    cases h
    exact hrefuses

/-! ## Closing -/

/-- What closing a document does. Only the last one to close it tells the backend, and only if it
can be told. -/
structure Closes (i : Instance) (uri : String) (j : Instance) (told : Bool) : Prop
    extends Keeps i j where
  told_iff : told = true ↔
    i.canSend = true ∧ ∃ d, i.documents.lookup uri = some d ∧ d.references ≤ 1
  collector : j.collector = i.collector
  documents : ∀ u, j.documents.lookup u =
    if u = uri then
      (i.documents.lookup uri).bind fun d =>
        if d.references ≤ 1 then none else some { d with references := d.references - 1 }
    else i.documents.lookup u
  announcements : i.Linked → ∀ u, j.announcements u = i.announcements u ++
    if u = uri ∧ told = true then [.closed] else []

theorem about?_closing (uri u : String) :
    Announcement.about? u
        (.notification (.new Wire.DidClose.method (some (Wire.DidClose.mk uri).encode))) =
      if u = uri then some .closed else none := by
  rw [Announcement.about?, Announcement.read?_closing]
  by_cases h : u = uri
  · simp [h]
  · simp [h, Ne.symm h]

/-- The instance without the record of a document. -/
def withoutDocument (i : Instance) (uri : String) : Instance :=
  { i with documents := i.documents.filter fun e => e.1 ≠ uri }

theorem lookup_withoutDocument (i : Instance) (uri u : String) :
    (i.withoutDocument uri).documents.lookup u =
      if u = uri then none else i.documents.lookup u := by
  by_cases hu : u = uri
  · rw [if_pos hu, hu]
    exact Assoc.lookup_filter_self uri _
  · rw [if_neg hu]
    exact Assoc.lookup_filter_of_ne hu _

/-- The last one closes the document, and tells the backend if that is possible. -/
theorem closes_last {d : OpenDocument} (hd : i.documents.lookup uri = some d)
    (hlast : d.references ≤ 1) :
    Closes i uri ((i.withoutDocument uri).notify Wire.DidClose.method
      (some (Wire.DidClose.mk uri).encode)).1 i.canSend := by
  generalize hm : (Wire.Message.notification (.new Wire.DidClose.method
    (some (Wire.DidClose.mk uri).encode))) = m
  have hn : (i.withoutDocument uri).notify Wire.DidClose.method
      (some (Wire.DidClose.mk uri).encode) = (i.withoutDocument uri).send m := by
    rw [← hm]
    rfl
  have hk : Keeps i (i.withoutDocument uri) := .of_links rfl rfl id
  have hs : (i.withoutDocument uri).canSend = i.canSend := canSend_congr rfl rfl
  rw [hn]
  constructor
  · exact hk.trans (keeps_send _ m)
  · exact ⟨fun h => ⟨h, d, hd, hlast⟩, fun h => h.1⟩
  · exact collector_send _ m
  · intro u
    rw [documents_send, lookup_withoutDocument, hd, Option.bind_some, if_pos hlast]
  · intro hl u
    cases h : i.canSend with
    | true =>
      rw [announcements_send (hk.linked hl) (hs.trans h), ← hm, about?_closing]
      by_cases hu : u = uri
      · rw [if_pos hu, if_pos ⟨hu, rfl⟩]
        rfl
      · rw [if_neg hu, if_neg (fun hc => hu hc.1)]
        rfl
    | false =>
      rw [announcements_send_of_not_canSend (hs.trans h)]
      simp only [Bool.false_eq_true, and_false, if_false, List.append_nil]
      exact announcements_congr rfl u

theorem isOk_send (i : Instance) (m : Wire.Message) : (i.send m).2.isOk = i.canSend := by
  cases h : i.canSend with
  | true =>
    obtain ⟨n, -, hs⟩ := send_of_canSend h m
    rw [hs]
    rfl
  | false =>
    rcases send_of_not_canSend h m with hs | hs
    · rw [hs]
      rfl
    · rw [hs]
      rfl

theorem closes_of_closeDocument {told : Bool} (h : i.closeDocument uri = (j, told)) :
    Closes i uri j told := by
  unfold closeDocument at h
  cases hd : i.documents.lookup uri with
  | none =>
    rw [hd] at h
    cases h
    constructor
    · exact .refl i
    · simp [hd]
    · rfl
    · intro u
      by_cases hu : u = uri
      · rw [if_pos hu, hu, hd]
        rfl
      · rw [if_neg hu]
    · simp
  | some d =>
    rw [hd] at h
    simp only at h
    split_ifs at h with hlast
    · have hok : ((i.withoutDocument uri).notify Wire.DidClose.method
          (some (Wire.DidClose.mk uri).encode)).2.isOk = i.canSend :=
        (isOk_send _ _).trans (canSend_congr rfl rfl)
      obtain ⟨rfl, rfl⟩ := Prod.mk.inj h
      have hc := closes_last hd hlast
      rw [← hok] at hc
      exact hc
    · cases h
      constructor
      · exact .of_links rfl rfl id
      · simp [hd, hlast]
      · rfl
      · intro u
        rw [hd, Option.bind_some, if_neg hlast]
        exact Assoc.lookup_put uri u _ _
      · intro _ u
        simp only [Bool.false_eq_true, and_false, if_false, List.append_nil]
        exact announcements_congr rfl u

theorem closes_closeDocument (i : Instance) (uri : String) :
    Closes i uri (i.closeDocument uri).1 (i.closeDocument uri).2 :=
  closes_of_closeDocument rfl

/-! ## References -/

theorem references_congr (h : j.documents = i.documents) (u : String) :
    j.references u = i.references u := by
  rw [references, h]
  rfl

/-- An opening adds one to those who have the document open, if they can still be counted. -/
theorem Opens.references {version : Int} {waiter : Waiter} (h : Opens i now uri j version waiter)
    {u : String} (hb : i.references u < Word.maxU32) :
    j.references u = i.references u + if u = uri then 1 else 0 := by
  rw [Instance.references, h.documents]
  split_ifs with hu
  · subst hu
    exact Word.nextU32_of_lt hb
  · rfl

/-- A closing takes one of them away. -/
theorem Closes.references {told : Bool} (h : Closes i uri j told) (u : String) :
    j.references u = i.references u - if u = uri then 1 else 0 := by
  rw [Instance.references, h.documents, Instance.references]
  split_ifs with hu
  · subst hu
    cases i.documents.lookup u with
    | none => rfl
    | some d =>
      simp only [Option.bind_some]
      split_ifs with hlast
      · exact (Nat.sub_eq_zero_of_le hlast).symm
      · rfl
  · rfl

/-- Every document of which there is a record is open for somebody. -/
def Counted (i : Instance) : Prop := ∀ u d, i.documents.lookup u = some d → 0 < d.references

theorem Counted.congr (hi : i.Counted) (h : j.documents = i.documents) : j.Counted := by
  intro u d hd
  rw [h] at hd
  exact hi u d hd

theorem Counted.opens {version : Int} {waiter : Waiter} (hi : i.Counted)
    (h : Opens i now uri j version waiter) (hb : i.references uri < Word.maxU32) : j.Counted := by
  intro u d hd
  rw [h.documents] at hd
  split_ifs at hd
  · cases hd
    rw [Word.nextU32_of_lt hb]
    exact Nat.succ_pos _
  · exact hi u d hd

theorem Counted.closes {told : Bool} (hi : i.Counted) (h : Closes i uri j told) : j.Counted := by
  intro u d hd
  rw [h.documents] at hd
  split_ifs at hd
  · obtain ⟨d', -, hd⟩ := Option.bind_eq_some_iff.mp hd
    split_ifs at hd with hlast
    cases hd
    exact Nat.sub_pos_of_lt (Nat.lt_of_not_le hlast)
  · exact hi u d hd

/-- If nobody has a document open, there is no record of any. -/
theorem Counted.documents_eq_nil (hi : i.Counted) (h : ∀ u, i.references u = 0) :
    i.documents = [] := by
  refine List.eq_nil_iff_forall_not_mem.mpr fun e he => ?_
  obtain ⟨d, hd⟩ := Assoc.exists_lookup_of_mem he
  have hzero := h e.1
  rw [references, hd] at hzero
  exact absurd (hi _ _ hd) (hzero ▸ Nat.lt_irrefl 0)

end DiagnosticBroker.Instance
