import DiagnosticBroker.Instance.Incoming
import DiagnosticBroker.Proofs.Instance.Announcements

/-!
# The connection of an instance

An instance has one link at most, on which frames can be queued until its writer ends. Much of what
happens to an instance has nothing to do with its documents. `Keeps` says that the link fares no
differently, and `Aside` that also the documents, what was announced of them, and their diagnostics
stay as they are.

Results:
* `send_of_canSend`, `send_of_not_canSend`: what queuing a frame does.
* `queued_send`, `announcements_send`: what a frame adds to what is queued and to what was
  announced.
* `aside_send`: other frames are queued beside the documents.
-/

namespace DiagnosticBroker

namespace Instance

variable {i j k : Instance}

/-! ## The link -/

/-- All frames that were ever queued, in order. -/
def queued (i : Instance) : List Wire.Message := i.links.flatMap (·.frames)

/-- What was announced of a document, in order. -/
def announcements (i : Instance) (uri : String) : List Announcement :=
  i.queued.filterMap (Announcement.about? uri)

/-- Whether a frame can be queued. -/
def canSend (i : Instance) : Bool :=
  match i.outgoing with
  | none => false
  | some n => !i.writerEnded n

/-- Frames could be queued once, but cannot be any more. -/
def IsCut (i : Instance) : Prop := i.links ≠ [] ∧ i.canSend = false

theorem not_isCut (h : i.canSend = true) : ¬ i.IsCut := by
  intro hc
  rw [hc.2] at h
  cases h

/-- Whether the reader of the link has ended. -/
def isLost (i : Instance) : Bool :=
  match i.link? 0 with
  | some l => l.reader.isEnded
  | none => false

/-- There is one link at most, and frames are queued on no other. -/
structure Linked (i : Instance) : Prop where
  atMostOne : i.links.length ≤ 1
  outgoing : ∀ n, i.outgoing = some n → n = 0

/-- Nobody has begun to stop the instance. -/
structure Unstopped (i : Instance) : Prop where
  alive : i.lifecycle ≠ .terminated
  unsealed : ∀ l ∈ i.links, l.sealed = false

/-- The link of `j` is no other than that of `i`, and nothing better. -/
structure KeepsLink (i j : Instance) : Prop where
  length : j.links.length = i.links.length
  linked : i.Linked → j.Linked
  cut : i.IsCut → j.IsCut

/-- The link of `j` is that of `i`, and as good unless the instance is being stopped. -/
structure Keeps (i j : Instance) : Prop extends KeepsLink i j where
  unstopped : i.Unstopped → j.Unstopped
  canSend : i.Unstopped → i.canSend = true → j.canSend = true
  isLost : i.Unstopped → j.isLost = i.isLost

theorem KeepsLink.trans (h : KeepsLink i j) (h' : KeepsLink j k) : KeepsLink i k where
  length := h'.length.trans h.length
  linked hi := h'.linked (h.linked hi)
  cut hi := h'.cut (h.cut hi)

theorem Keeps.trans (h : Keeps i j) (h' : Keeps j k) : Keeps i k where
  toKeepsLink := h.toKeepsLink.trans h'.toKeepsLink
  unstopped hi := h'.unstopped (h.unstopped hi)
  canSend hi hs := h'.canSend (h.unstopped hi) (h.canSend hi hs)
  isLost hi := (h'.isLost (h.unstopped hi)).trans (h.isLost hi)

theorem canSend_eq_false (h : ∀ n, i.outgoing = some n → i.writerEnded n = true) :
    i.canSend = false := by
  unfold canSend
  cases ho : i.outgoing with
  | none => rfl
  | some n => simp [h n ho]

theorem canSend_congr (hl : j.links = i.links) (ho : j.outgoing = i.outgoing) :
    j.canSend = i.canSend := by
  simp [canSend, writerEnded, link?, hl, ho]

/-- What does not touch the link keeps it. -/
theorem Keeps.of_links (hl : j.links = i.links) (ho : j.outgoing = i.outgoing)
    (hc : i.lifecycle ≠ .terminated → j.lifecycle ≠ .terminated) : Keeps i j where
  length := by rw [hl]
  linked hi := ⟨by rw [hl]; exact hi.atMostOne, by rw [ho]; exact hi.outgoing⟩
  cut hi := ⟨by rw [hl]; exact hi.1, by rw [canSend_congr hl ho]; exact hi.2⟩
  unstopped hi := ⟨hc hi.alive, by rw [hl]; exact hi.unsealed⟩
  canSend _ hs := by rw [canSend_congr hl ho]; exact hs
  isLost _ := by simp [Instance.isLost, link?, hl]

theorem Keeps.refl (i : Instance) : Keeps i i := .of_links rfl rfl id

theorem link?_modifyLink (i : Instance) (n m : Nat) (f : Link → Link) :
    (i.modifyLink n f).link? m = if n = m then (i.link? m).map f else i.link? m := by
  simp only [link?, modifyLink, List.getElem?_modify]
  split_ifs with h
  · rfl
  · simp

theorem writerEnded_modifyLink {n : Nat} {f : Link → Link}
    (hw : ∀ l, i.link? n = some l → (f l).writer.isEnded = l.writer.isEnded) (m : Nat) :
    (i.modifyLink n f).writerEnded m = i.writerEnded m := by
  unfold writerEnded
  rw [link?_modifyLink]
  split_ifs with h
  · subst h
    cases hl : i.link? n with
    | none => rfl
    | some l => exact hw l hl
  · rfl

theorem canSend_modifyLink {n : Nat} {f : Link → Link}
    (hw : ∀ l, i.link? n = some l → (f l).writer.isEnded = l.writer.isEnded) :
    (i.modifyLink n f).canSend = i.canSend := by
  have ho : (i.modifyLink n f).outgoing = i.outgoing := rfl
  unfold canSend
  rw [ho]
  cases i.outgoing with
  | none => rfl
  | some m => simp only [writerEnded_modifyLink hw]

theorem links_modifyLink_ne_nil {n : Nat} {f : Link → Link} (h : i.links ≠ []) :
    (i.modifyLink n f).links ≠ [] := by
  simpa [modifyLink] using h

theorem length_links_modifyLink (i : Instance) (n : Nat) (f : Link → Link) :
    (i.modifyLink n f).links.length = i.links.length :=
  List.length_modify f i.links n

theorem linked_modifyLink (n : Nat) (f : Link → Link) (h : i.Linked) :
    (i.modifyLink n f).Linked :=
  ⟨by simpa [modifyLink] using h.atMostOne, h.outgoing⟩

theorem unstopped_modifyLink {n : Nat} {f : Link → Link} (hs : ∀ l, (f l).sealed = l.sealed)
    (hi : i.Unstopped) : (i.modifyLink n f).Unstopped := by
  refine ⟨hi.alive, fun l hl => ?_⟩
  obtain ⟨m, hm⟩ := List.mem_iff_getElem?.mp hl
  change (i.modifyLink n f).link? m = some l at hm
  rw [link?_modifyLink] at hm
  split_ifs at hm
  · obtain ⟨l', hl', rfl⟩ := Option.map_eq_some_iff.mp hm
    rw [hs]
    exact hi.unsealed l' (List.mem_of_getElem? hl')
  · exact hi.unsealed l (List.mem_of_getElem? hm)

/-- Changes of a link that leave its ends and its seal alone keep it. -/
theorem Keeps.modifyLink {n : Nat} {f : Link → Link}
    (hw : ∀ l, i.link? n = some l → (f l).writer.isEnded = l.writer.isEnded)
    (hr : ∀ l, i.link? n = some l → (f l).reader.isEnded = l.reader.isEnded)
    (hs : ∀ l, (f l).sealed = l.sealed) : Keeps i (i.modifyLink n f) where
  length := length_links_modifyLink i n f
  linked := linked_modifyLink n f
  cut hi := ⟨links_modifyLink_ne_nil hi.1, by rw [canSend_modifyLink hw]; exact hi.2⟩
  unstopped := unstopped_modifyLink hs
  canSend _ h := by rw [canSend_modifyLink hw]; exact h
  isLost _ := by
    unfold Instance.isLost
    rw [link?_modifyLink]
    split_ifs with h
    · subst h
      cases hl : i.link? 0 with
      | none => simp
      | some l => simp [hr l hl]
    · rfl

/-- The link is still no other when its writer has ended. -/
theorem KeepsLink.setWriter_ended (i : Instance) (n : Nat) :
    KeepsLink i (i.setWriter n .ended) where
  length := length_links_modifyLink i n _
  linked := linked_modifyLink n _
  cut hi := by
    refine ⟨links_modifyLink_ne_nil hi.1, ?_⟩
    have hi' := hi.2
    unfold Instance.canSend at hi' ⊢
    change (match i.outgoing with
      | none => false
      | some m => !(i.setWriter n .ended).writerEnded m) = false
    cases ho : i.outgoing with
    | none => rfl
    | some m =>
      rw [ho] at hi'
      have hm : i.writerEnded m = true := by simpa using hi'
      unfold writerEnded at hm
      simp only [setWriter, writerEnded, link?_modifyLink]
      split_ifs with h
      · subst h
        cases i.link? n <;> rfl
      · cases hl : i.link? m with
        | none => rfl
        | some l => simpa [hl] using hm

/-! ## Queuing frames -/

theorem keeps_markDegraded (i : Instance) : Keeps i i.markDegraded := by
  unfold markDegraded
  cases h : i.lifecycle <;> simp only
  case terminated => exact .refl i
  all_goals exact .of_links rfl rfl fun _ => by simp

/-- A frame that can be queued, is. -/
theorem send_of_canSend (h : i.canSend = true) (m : Wire.Message) :
    ∃ n, i.outgoing = some n ∧
      i.send m = (i.modifyLink n fun l => { l with frames := l.frames ++ [m] }, .ok ()) := by
  unfold canSend at h
  cases ho : i.outgoing with
  | none => rw [ho] at h; cases h
  | some n =>
    rw [ho] at h
    have hn : i.writerEnded n = false := by simpa using h
    exact ⟨n, rfl, by simp [send, ho, hn]⟩

/-- A frame that cannot be queued leaves the queued ones alone. -/
theorem send_of_not_canSend (h : i.canSend = false) (m : Wire.Message) :
    i.send m = (i, .error .notConnected) ∨ i.send m = (i.markDegraded, .error i.gone) := by
  unfold canSend at h
  cases ho : i.outgoing with
  | none => exact .inl (by simp [send, ho])
  | some n =>
    rw [ho] at h
    have hn : i.writerEnded n = true := by simpa using h
    exact .inr (by simp [send, ho, hn])

theorem keeps_send (i : Instance) (m : Wire.Message) : Keeps i (i.send m).1 := by
  cases h : i.canSend with
  | true =>
    obtain ⟨n, -, hs⟩ := send_of_canSend h m
    rw [hs]
    exact .modifyLink (fun _ _ => rfl) (fun _ _ => rfl) fun _ => rfl
  | false =>
    rcases send_of_not_canSend h m with hs | hs
    · rw [hs]
      exact .refl i
    · rw [hs]
      exact keeps_markDegraded i

@[simp]
theorem links_markDegraded (i : Instance) : i.markDegraded.links = i.links := by
  unfold markDegraded
  cases i.lifecycle <;> rfl

@[simp]
theorem documents_markDegraded (i : Instance) : i.markDegraded.documents = i.documents := by
  unfold markDegraded
  cases i.lifecycle <;> rfl

@[simp]
theorem collector_markDegraded (i : Instance) : i.markDegraded.collector = i.collector := by
  unfold markDegraded
  cases i.lifecycle <;> rfl

@[simp]
theorem documents_send (i : Instance) (m : Wire.Message) :
    (i.send m).1.documents = i.documents := by
  unfold send
  split
  · rfl
  · split_ifs
    · exact documents_markDegraded i
    · rfl

@[simp]
theorem collector_send (i : Instance) (m : Wire.Message) :
    (i.send m).1.collector = i.collector := by
  unfold send
  split
  · rfl
  · split_ifs
    · exact collector_markDegraded i
    · rfl

/-- Changes of a link that leave its frames alone queue nothing. -/
theorem queued_modifyLink (n : Nat) {f : Link → Link} (hf : ∀ l, (f l).frames = l.frames) :
    (i.modifyLink n f).queued = i.queued := by
  suffices h : ∀ (ls : List Link) (m : Nat),
      (ls.modify m f).flatMap (·.frames) = ls.flatMap (·.frames) from h i.links n
  intro ls
  induction ls with
  | nil => simp
  | cons l ls ih =>
    intro m
    cases m with
    | zero => simp [hf]
    | succ m => simp [ih]

/-- A frame that can be queued comes after all others. -/
theorem queued_send (hi : i.Linked) (h : i.canSend = true) (m : Wire.Message) :
    (i.send m).1.queued = i.queued ++ [m] := by
  obtain ⟨n, ho, hs⟩ := send_of_canSend h m
  rw [hs]
  have hn := hi.outgoing n ho
  subst hn
  have hl : i.links.length ≤ 1 := hi.atMostOne
  unfold canSend at h
  rw [ho] at h
  cases hls : i.links with
  | nil => simp [writerEnded, link?, hls] at h
  | cons l ls =>
    rw [hls] at hl
    have hnil : ls = [] := List.eq_nil_of_length_eq_zero (by simpa using hl)
    subst hnil
    simp [queued, modifyLink, hls]

theorem queued_send_of_not_canSend (h : i.canSend = false) (m : Wire.Message) :
    (i.send m).1.queued = i.queued := by
  rcases send_of_not_canSend h m with hs | hs
  · rw [hs]
  · rw [hs, queued, links_markDegraded]
    rfl

/-- Queuing a frame adds nothing to what is read from other frames. -/
theorem filterMap_queued_send {α : Type} {f : Wire.Message → Option α} {m : Wire.Message}
    (hm : f m = none) : (i.send m).1.queued.filterMap f = i.queued.filterMap f := by
  cases h : i.canSend with
  | false => rw [queued_send_of_not_canSend h]
  | true =>
    obtain ⟨n, -, hs⟩ := send_of_canSend h m
    rw [hs]
    suffices hls : ∀ (ls : List Link) (k : Nat),
        ((ls.modify k fun l => { l with frames := l.frames ++ [m] }).flatMap (·.frames)).filterMap
          f = (ls.flatMap (·.frames)).filterMap f from hls i.links n
    intro ls
    induction ls with
    | nil => simp
    | cons l ls ih =>
      intro k
      cases k with
      | zero => simp [hm]
      | succ k => simp [ih]

theorem announcements_congr (h : j.links = i.links) (uri : String) :
    j.announcements uri = i.announcements uri := by
  simp [announcements, queued, h]

/-- Changes of a link that leave its frames alone announce nothing. -/
theorem announcements_modifyLink (n : Nat) {f : Link → Link} (hf : ∀ l, (f l).frames = l.frames)
    (uri : String) : (i.modifyLink n f).announcements uri = i.announcements uri := by
  rw [announcements, queued_modifyLink n hf]
  rfl

/-- What a frame adds to what was announced of a document. -/
theorem announcements_send (hi : i.Linked) (h : i.canSend = true) (m : Wire.Message)
    (uri : String) :
    (i.send m).1.announcements uri =
      i.announcements uri ++ (Announcement.about? uri m).toList := by
  rw [announcements, queued_send hi h, List.filterMap_append, announcements]
  cases hm : Announcement.about? uri m <;> simp [hm]

/-- What cannot be queued is not announced. -/
theorem announcements_send_of_not_canSend (h : i.canSend = false) (m : Wire.Message)
    (uri : String) : (i.send m).1.announcements uri = i.announcements uri := by
  rw [announcements, queued_send_of_not_canSend h]
  rfl

/-- Frames about nothing of a document announce nothing of it. -/
theorem announcements_send_of_none {m : Wire.Message} {uri : String}
    (hm : Announcement.about? uri m = none) :
    (i.send m).1.announcements uri = i.announcements uri :=
  filterMap_queued_send hm

/-! ## What happens aside -/

/-- The documents of `j` and their diagnostics are those of `i`, and so is its link. -/
structure Aside (i j : Instance) : Prop extends Keeps i j where
  documents : j.documents = i.documents
  collector : j.collector = i.collector
  announcements : ∀ uri, j.announcements uri = i.announcements uri

theorem Aside.trans (h : Aside i j) (h' : Aside j k) : Aside i k where
  toKeeps := h.toKeeps.trans h'.toKeeps
  documents := h'.documents.trans h.documents
  collector := h'.collector.trans h.collector
  announcements uri := (h'.announcements uri).trans (h.announcements uri)

theorem Aside.of_links (hl : j.links = i.links) (ho : j.outgoing = i.outgoing)
    (hc : i.lifecycle ≠ .terminated → j.lifecycle ≠ .terminated) (hd : j.documents = i.documents)
    (hk : j.collector = i.collector) : Aside i j where
  toKeeps := .of_links hl ho hc
  documents := hd
  collector := hk
  announcements := announcements_congr hl

theorem Aside.refl (i : Instance) : Aside i i := .of_links rfl rfl id rfl rfl

theorem Aside.modifyLink {n : Nat} {f : Link → Link}
    (hw : ∀ l, i.link? n = some l → (f l).writer.isEnded = l.writer.isEnded)
    (hr : ∀ l, i.link? n = some l → (f l).reader.isEnded = l.reader.isEnded)
    (hs : ∀ l, (f l).sealed = l.sealed) (hf : ∀ l, (f l).frames = l.frames) :
    Aside i (i.modifyLink n f) where
  toKeeps := .modifyLink hw hr hs
  documents := rfl
  collector := rfl
  announcements := announcements_modifyLink n hf

theorem aside_markDegraded (i : Instance) : Aside i i.markDegraded where
  toKeeps := keeps_markDegraded i
  documents := documents_markDegraded i
  collector := collector_markDegraded i
  announcements := announcements_congr (links_markDegraded i)

theorem aside_send {m : Wire.Message} (hm : Announcement.read? m = none) :
    Aside i (i.send m).1 where
  toKeeps := keeps_send i m
  documents := documents_send i m
  collector := collector_send i m
  announcements uri := announcements_send_of_none (by rw [Announcement.about?, hm])

/-- The methods that are no announcements. -/
theorem aside_notify {method : String} (i : Instance) (params : Option Json)
    (h : method = "initialized" ∨ method = "exit" ∨ method = "$/cancelRequest") :
    Aside i (i.notify method params).1 := by
  refine aside_send (Announcement.read?_notification_of_ne params ?_ ?_ ?_) <;>
    rcases h with rfl | rfl | rfl <;> decide

end Instance

end DiagnosticBroker
