import DiagnosticBroker.Instance.Shutdown
import DiagnosticBroker.Instance.Start
import DiagnosticBroker.Proofs.Instance.Connection

/-!
# What happens beside the documents

Requests and their answers, the start of an instance, and most of what its reader and its writer do
have nothing to do with documents and their diagnostics. A shutdown, a lost stream, and a frame that
cannot be written end the subscriptions and change nothing else that documents depend on.

Results:
* `aside_exchange`, `fares_start`: requests and starts happen beside the documents.
* `stops_shutdown`: what a shutdown does.
* `loses_readerStep`, `loses_failFrames`: what a lost stream and an undelivered frame do.
-/

namespace DiagnosticBroker

/-! ## Where steps lead to -/

section Leads

variable {σ ρ π α β : Type}

/-- Every state that a step leads to has a property. -/
def Step.Leads (s : Step σ ρ α) (P : σ → Prop) : Prop :=
  match s with
  | .blocked _ => True
  | .next st _ => P st
  | .later st _ => P st
  | .done st _ => P st

theorem Step.Leads.mono {s : Step σ ρ α} {P Q : σ → Prop} (h : s.Leads P)
    (hPQ : ∀ st, P st → Q st) : s.Leads Q := by
  cases s with
  | blocked u => trivial
  | next st r => exact hPQ st h
  | later st r => exact hPQ st h
  | done st a => exact hPQ st h

theorem Step.Leads.within {s : Step σ ρ α} {P Q : σ → Prop} (h : s.Leads P)
    {rest : ρ → π} {finish : σ → α → Step σ π β} (hPQ : ∀ st, P st → Q st)
    (hf : ∀ st a, P st → (finish st a).Leads Q) : (s.within rest finish).Leads Q := by
  cases s with
  | blocked u => trivial
  | next st r => exact hPQ st h
  | later st r => exact hPQ st h
  | done st a => exact hf st a h

theorem Step.Leads.orAt {s expire : Step σ ρ α} {P : σ → Prop} (h : s.Leads P)
    (he : expire.Leads P) (now deadline : Time) : (s.orAt now deadline expire).Leads P := by
  cases s with
  | blocked u =>
    unfold Step.orAt
    split_ifs
    · exact he
    · cases u <;> trivial
  | next st r => exact h
  | later st r => exact h
  | done st a => exact h

end Leads

namespace Instance

variable {i j k : Instance}

/-! ## Requests and starts -/

theorem aside_beginExchange (i : Instance) (method : String) (params : Option Json) :
    Aside i (Exchange.start i method params).1 := by
  have hn : Aside i { i with nextId := i.nextId + 1 } := .of_links rfl rfl id rfl rfl
  unfold Exchange.start
  split
  · exact .refl i
  · exact .refl i
  · exact .refl i
  · exact hn

/-- Requests happen beside the documents. -/
theorem aside_exchange (now : Time) (i : Instance) (x : Exchange) :
    (x.step now i).Leads (Aside i) := by
  unfold Exchange.step
  cases x.phase with
  | register =>
    have hp : Aside i { i with pending := i.pending ++ [x.id] } := .of_links rfl rfl id rfl rfl
    have hs := hp.trans (aside_send
      (m := .request (.new x.id x.method x.params)) (i := { i with pending := i.pending ++ [x.id] })
      rfl)
    simp only
    split <;> exact hs
  | unregister f => exact .of_links rfl rfl id rfl rfl
  | waiting deadline =>
    simp only
    split
    · exact .of_links rfl rfl id rfl rfl
    · split_ifs
      · exact .refl i
      · trivial
  | giveUp =>
    have hp : Aside i (Exchange.forget i x.id) := .of_links rfl rfl id rfl rfl
    exact (hp.trans (aside_notify _ _ (.inr (.inr rfl)))).trans (aside_markDegraded _)

/-- The instance `j` fares no worse than `i`, and may have been connected. -/
structure Fares (i j : Instance) : Prop where
  linked : i.Linked → j.Linked
  cut : i.IsCut → j.IsCut
  unstopped : i.Unstopped → j.Unstopped
  canSend : i.Unstopped → i.canSend = true → j.canSend = true
  isLost : i.Unstopped → j.isLost = i.isLost
  documents : j.documents = i.documents
  collector : j.collector = i.collector
  announcements : ∀ uri, j.announcements uri = i.announcements uri
  attached : i.links ≠ [] → j.links ≠ []

theorem attached_of_length (h : j.links.length = i.links.length) (hi : i.links ≠ []) :
    j.links ≠ [] := by
  rw [← List.length_pos_iff, h]
  exact List.length_pos_iff.mpr hi

theorem Aside.fares (h : Aside i j) : Fares i j where
  linked := h.linked
  cut := h.cut
  unstopped := h.unstopped
  canSend := h.canSend
  isLost := h.isLost
  documents := h.documents
  collector := h.collector
  announcements := h.announcements
  attached := attached_of_length h.length

theorem Fares.trans (h : Fares i j) (h' : Fares j k) : Fares i k where
  linked hi := h'.linked (h.linked hi)
  cut hi := h'.cut (h.cut hi)
  unstopped hi := h'.unstopped (h.unstopped hi)
  canSend hi hs := h'.canSend (h.unstopped hi) (h.canSend hi hs)
  isLost hi := (h'.isLost (h.unstopped hi)).trans (h.isLost hi)
  documents := h'.documents.trans h.documents
  collector := h'.collector.trans h.collector
  announcements uri := (h'.announcements uri).trans (h.announcements uri)
  attached hi := h'.attached (h.attached hi)

/-- A new link is no worse than none. -/
theorem fares_connect (hl : i.links = []) (launch : Nat) : Fares i (i.connect launch) := by
  have hlinks : (i.connect launch).links = [{ launch := launch }] := by
    cases ho : i.outgoing <;> simp [connect, ho, hl, sealLink, Instance.modifyLink]
  have hout : (i.connect launch).outgoing = some 0 := by
    cases ho : i.outgoing <;> simp [connect, ho, hl, sealLink, Instance.modifyLink]
  have hlife : (i.connect launch).lifecycle = i.lifecycle := by
    cases ho : i.outgoing <;> simp [connect, ho, sealLink, Instance.modifyLink]
  constructor
  · refine fun _ => ⟨by simp [hlinks], fun n hn => ?_⟩
    rw [hout] at hn
    exact (Option.some.inj hn).symm
  · exact fun h => absurd hl h.1
  · refine fun h => ⟨by rw [hlife]; exact h.alive, fun l hm => ?_⟩
    rw [hlinks, List.mem_singleton] at hm
    rw [hm]
  · intro _ _
    simp [Instance.canSend, hout, writerEnded, link?, hlinks, Writing.isEnded]
  · intro _
    simp [Instance.isLost, link?, hlinks, hl, Reading.isEnded]
  · cases ho : i.outgoing <;> simp [connect, ho, sealLink, Instance.modifyLink]
  · cases ho : i.outgoing <;> simp [connect, ho, sealLink, Instance.modifyLink]
  · intro uri
    simp [Instance.announcements, queued, hlinks, hl]
  · exact fun h => absurd hl h

/-- An instance moves on in the order of life if it is where it should be. -/
theorem advance_cases {a b : Lifecycle} :
    (i.lifecycle = a ∧ i.advance a b = .ok { i with lifecycle := b }) ∨
      (i.lifecycle ≠ a ∧ i.advance a b = .error i.gone) := by
  unfold advance
  split_ifs with h
  · exact .inl ⟨h, rfl⟩
  · exact .inr ⟨h, rfl⟩

theorem eq_of_advance {a b : Lifecycle} (h : i.advance a b = .ok j) :
    i.lifecycle = a ∧ j = { i with lifecycle := b } := by
  obtain ⟨hl, h'⟩ | ⟨-, h'⟩ := advance_cases (i := i) (a := a) (b := b) <;> cases h'.symm.trans h
  exact ⟨hl, rfl⟩

theorem aside_advance {a b : Lifecycle} (hb : b ≠ .terminated) (h : i.advance a b = .ok j) :
    Aside i j := by
  obtain ⟨-, rfl⟩ := eq_of_advance h
  exact .of_links rfl rfl (fun _ => hb) rfl rfl

/-- A start happens beside the documents, and connects the instance only if it has no link. -/
theorem fares_start (now : Time) {s : Start} (h : s.phase = .attach → i.links = []) :
    (s.step now i).Leads (Fares i) := by
  unfold Start.step
  cases hp : s.phase with
  | begin =>
    have hi : Aside i { i with lifecycle := .starting } :=
      .of_links rfl rfl (fun _ => by simp) rfl rfl
    exact hi.fares
  | attach =>
    generalize hi : ({ i with
      process := if s.isProcess then some s.launch else none } : Instance) = i'
    have hi' : Aside i i' := by
      subst hi
      exact .of_links rfl rfl id rfl rfl
    have hl' : i'.links = [] := by
      subst hi
      exact h hp
    have hx := aside_beginExchange (i'.connect s.launch) "initialize"
      (some ((i'.connect s.launch).introduction s.clientProcess).encode.canonical)
    have hf := (hi'.fares.trans (fares_connect hl' s.launch)).trans hx.fares
    simp only [Start.attach, hi]
    split <;> rename_i heq
    · rw [heq] at hf
      exact hf
    · rw [heq] at hf
      exact hf
  | handshake x =>
    refine (aside_exchange now i x).within (fun _ h => h.fares) fun j a hj => ?_
    cases a with
    | error f => exact hj.fares
    | ok r =>
      simp only [Start.answered]
      split <;> exact hj.fares
  | record r =>
    have hr : Aside i { i with capabilities := some r } := .of_links rfl rfl id rfl rfl
    exact hr.fares
  | confirm | complete =>
    simp only
    split
    · rename_i j hj
      exact (aside_advance (by decide) hj).fares
    · exact (Aside.refl i).fares
  | announce =>
    have hn := (aside_notify i (some (.obj [])) (.inl rfl)).fares
    simp only
    split <;> rename_i heq
    · rw [heq] at hn
      exact hn
    · rw [heq] at hn
      exact hn

/-- How far a start is after a step: the instance is not connected before it is attached. -/
theorem phase_of_start {now : Time} {s s' : Start} {st : Instance}
    (h : s.step now i = .next st s' ∨ s.step now i = .later st s') :
    s'.phase ≠ .begin ∧ (s'.phase = .attach → s.phase = .begin ∧ st.links = i.links) := by
  unfold Start.step at h
  cases hp : s.phase with
  | begin =>
    rw [hp] at h
    rcases h with h | h
    · cases h
      exact ⟨by simp, fun _ => ⟨rfl, rfl⟩⟩
    · cases h
  | attach =>
    rw [hp] at h
    simp only [Start.attach] at h
    split at h
    · rcases h with h | h
      · cases h
        exact ⟨by simp, by simp⟩
      · cases h
    · rcases h with h | h <;> cases h
  | handshake x =>
    rw [hp] at h
    simp only at h
    cases hx : x.step now i with
    | blocked u => rw [hx] at h; rcases h with h | h <;> cases h
    | next st' x' =>
      rw [hx] at h
      rcases h with h | h <;> cases h
      exact ⟨by simp, by simp⟩
    | later st' x' =>
      rw [hx] at h
      rcases h with h | h <;> cases h
      exact ⟨by simp, by simp⟩
    | done st' a =>
      rw [hx] at h
      cases a with
      | error f => rcases h with h | h <;> cases h
      | ok r =>
        simp only [Step.within, Start.answered] at h
        split at h
        · rcases h with h | h <;> cases h
        · rcases h with h | h <;> cases h
          exact ⟨by simp, by simp⟩
  | record r =>
    rw [hp] at h
    rcases h with h | h
    · cases h
      exact ⟨by simp, by simp⟩
    · cases h
  | confirm | announce | complete =>
    rw [hp] at h
    simp only at h
    split at h <;> rcases h with h | h <;> cases h
    all_goals exact ⟨by simp, by simp⟩

/-! ## Shutdowns -/

/-- What a shutdown may do: the connection gets worse, and the subscriptions end. -/
structure Stops (i j : Instance) : Prop extends KeepsLink i j where
  documents : j.documents = i.documents
  collector : j.collector = i.collector ∨ j.collector = i.collector.disconnect
  announcements : ∀ uri, j.announcements uri = i.announcements uri

theorem Aside.stops (h : Aside i j) : Stops i j :=
  ⟨h.toKeepsLink, h.documents, .inl h.collector, h.announcements⟩

theorem Stops.trans (h : Aside i j) (h' : Stops j k) : Stops i k where
  toKeepsLink := h.toKeepsLink.trans h'.toKeepsLink
  documents := h'.documents.trans h.documents
  collector := by rw [← h.collector]; exact h'.collector
  announcements uri := (h'.announcements uri).trans (h.announcements uri)

/-- Closing the input of the backend makes the connection worse. -/
theorem keepsLink_hangUp (i : Instance) : KeepsLink i i.hangUp where
  length := by
    unfold hangUp
    cases i.outgoing with
    | none => rfl
    | some n => exact length_links_modifyLink i n _
  linked hi := by
    unfold hangUp
    cases ho : i.outgoing with
    | none => exact ⟨hi.atMostOne, fun n hn => by simp [ho] at hn⟩
    | some n => exact ⟨(linked_modifyLink n _ hi).atMostOne, fun m hm => by simp at hm⟩
  cut hi := by
    unfold hangUp
    cases ho : i.outgoing with
    | none => exact hi
    | some n => exact ⟨links_modifyLink_ne_nil hi.1, rfl⟩

theorem stops_hangUp (i : Instance) : Stops i i.hangUp where
  toKeepsLink := keepsLink_hangUp i
  documents := by unfold hangUp; cases i.outgoing <;> rfl
  collector := .inl (by unfold hangUp; cases i.outgoing <;> rfl)
  announcements uri := by
    unfold hangUp
    cases i.outgoing with
    | none => rfl
    | some n =>
      exact announcements_modifyLink (f := fun l => { l with sealed := true }) n (fun _ => rfl) uri

theorem stops_close (now : Time) (i : Instance) : (Shutdown.close now i).Leads (Stops i) := by
  have h : Stops i ({ i with lifecycle := .terminated }).hangUp := by
    have hh := stops_hangUp { i with lifecycle := .terminated }
    exact ⟨⟨hh.length, fun hi => hh.linked ⟨hi.1, hi.2⟩, hh.cut⟩, hh.documents, hh.collector,
      hh.announcements⟩
  unfold Shutdown.close
  simp only
  split
  · exact ⟨⟨h.length, fun hi => ⟨(h.linked hi).1, (h.linked hi).2⟩, h.cut⟩, h.documents,
      h.collector, h.announcements⟩
  · exact h

/-- A shutdown only makes the connection worse and ends the subscriptions. -/
theorem stops_shutdown (exited : Nat → Bool) (now : Time) (i : Instance) (s : Shutdown) :
    (s.step exited now i).Leads (Stops i) := by
  have hanswer : ∀ j a, Aside i j → (Shutdown.answered now j a).Leads (Stops i) := by
    intro j a hj
    cases a with
    | error f => exact (stops_close now j).mono fun _ h => .trans hj h
    | ok r =>
      have hn := hj.trans (aside_notify j none (.inr (.inl rfl)))
      exact (stops_close now _).mono fun _ h => .trans hn h
  cases s with
  | begin =>
    rw [Shutdown.step]
    split_ifs
    · exact (Aside.refl i).stops
    · split <;> rename_i heq
      · have hx := aside_beginExchange i "shutdown" none
        rw [heq] at hx
        exact hx.stops
      · have hx := aside_beginExchange i "shutdown" none
        rw [heq] at hx
        exact (stops_close now _).mono fun _ h => .trans hx h
    · exact stops_close now i
  | asking x deadline =>
    refine Step.Leads.orAt ?_ (stops_close now i) now deadline
    exact (aside_exchange now i x).within (fun _ h => h.stops) hanswer
  | draining n deadline =>
    rw [Shutdown.step]
    split_ifs
    · exact (Aside.refl i).stops
    · trivial
  | reaping =>
    rw [Shutdown.step]
    split
    · have hp : Aside i { i with process := none } := .of_links rfl rfl id rfl rfl
      exact hp.stops
    · exact (Aside.refl i).stops
  | exiting p deadline =>
    rw [Shutdown.step]
    split_ifs
    · exact (Aside.refl i).stops
    · trivial
  | failing =>
    exact ⟨⟨rfl, fun hi => ⟨hi.1, hi.2⟩, id⟩, rfl, .inr rfl, fun _ => rfl⟩

/-! ## The reader and the writer -/

/-- An instance that is being stopped need keep its link no longer. -/
theorem Aside.of_stopped (hi : ¬ i.Unstopped) (hk : KeepsLink i j) (hd : j.documents = i.documents)
    (hc : j.collector = i.collector)
    (ha : ∀ uri, j.announcements uri = i.announcements uri) : Aside i j where
  toKeeps := ⟨hk, fun h => absurd h hi, fun h => absurd h hi, fun h => absurd h hi⟩
  documents := hd
  collector := hc
  announcements := ha

theorem keepsLink_setReader (i : Instance) (n : Nat) (r : Reading) :
    KeepsLink i (i.setReader n r) where
  length := length_links_modifyLink i n _
  linked := linked_modifyLink n _
  cut hi := by
    refine ⟨links_modifyLink_ne_nil hi.1, Eq.trans ?_ hi.2⟩
    exact canSend_modifyLink (f := fun l => { l with reader := r }) fun _ _ => rfl

theorem aside_setReader {n : Nat} {r : Reading}
    (hr : ∀ l, i.link? n = some l → r.isEnded = l.reader.isEnded) : Aside i (i.setReader n r) :=
  .modifyLink (fun _ _ => rfl) (fun l hl => hr l hl) (fun _ => rfl) fun _ => rfl

theorem aside_setWriter {n : Nat} {w : Writing}
    (hw : ∀ l, i.link? n = some l → w.isEnded = l.writer.isEnded) : Aside i (i.setWriter n w) :=
  .modifyLink (fun l hl => hw l hl) (fun _ _ => rfl) (fun _ => rfl) fun _ => rfl

/-- While an instance is being stopped, its writer may end. -/
theorem aside_setWriter_ended {n : Nat} (hi : ¬ i.Unstopped) : Aside i (i.setWriter n .ended) :=
  .of_stopped hi (.setWriter_ended i n) rfl rfl (announcements_modifyLink n fun _ => rfl)

theorem aside_takeFrame {n : Nat} {l : Link} (hl : i.link? n = some l) (hw : l.writer = .idle)
    (m : Wire.Message) : Aside i (i.takeFrame n m) := by
  refine .modifyLink (fun l' hl' => ?_) (fun _ _ => rfl) (fun _ => rfl) fun _ => rfl
  rw [hl] at hl'
  cases hl'
  rw [hw]
  rfl

theorem link?_markDegraded (i : Instance) (n : Nat) : i.markDegraded.link? n = i.link? n := by
  simp [link?]

/-- A stream that is lost has no effect at first. -/
theorem aside_loseStream {n : Nat} {l : Link} (hl : i.link? n = some l) (hr : l.reader = .idle) :
    Aside i (i.loseStream n) := by
  unfold loseStream
  split_ifs with hc
  · exact .of_stopped (fun h => h.alive hc) (keepsLink_setReader i n .ended) rfl rfl
      (announcements_modifyLink n fun _ => rfl)
  · refine (aside_markDegraded i).trans (aside_setReader fun l' hl' => ?_)
    rw [link?_markDegraded, hl] at hl'
    cases hl'
    rw [hr]
    rfl

/-- A frame that cannot be delivered has no effect at first. -/
theorem aside_failWriter {n : Nat} {l : Link} {m : Wire.Message} {size : Nat}
    (hl : i.link? n = some l) (hw : l.writer = .frame m size) : Aside i (i.failWriter n) := by
  unfold failWriter
  split_ifs with hc
  · exact aside_setWriter_ended fun h => h.alive hc
  · refine (aside_markDegraded i).trans (aside_setWriter fun l' hl' => ?_)
    rw [link?_markDegraded, hl] at hl'
    cases hl'
    rw [hw]
    rfl

theorem aside_deliver (i : Instance) (n : Wire.Id) (r : Wire.Response) :
    Aside i (i.deliver n r) := by
  unfold deliver
  split
  · exact .of_links rfl rfl id rfl rfl
  · exact .refl i

/-- The loss of the connection: the subscriptions end, and one end of the link has ended. -/
structure Loses (i j : Instance) : Prop extends KeepsLink i j where
  documents : j.documents = i.documents
  collector : j.collector = i.collector.disconnect
  announcements : ∀ uri, j.announcements uri = i.announcements uri
  unstopped : i.Unstopped → j.Unstopped
  ended : (i.isLost = false ∧ j.isLost = true) ∨ j.IsCut ∧ j.isLost = i.isLost

theorem loses_readerStep {l : Link} (hl : i.link? 0 = some l) (hr : l.reader = .losing) :
    Loses i (i.readerStep 0 .losing) where
  toKeepsLink := by
    have h := keepsLink_setReader (i.abandon "Backend terminated unexpectedly") 0 .ended
    exact ⟨h.length, fun hi => h.linked ⟨hi.1, hi.2⟩, h.cut⟩
  documents := rfl
  collector := rfl
  announcements := announcements_modifyLink (i := i.abandon _) 0 fun _ => rfl
  unstopped hi := unstopped_modifyLink (fun _ => rfl) ⟨hi.1, hi.2⟩
  ended := by
    left
    have hl' : (i.abandon "Backend terminated unexpectedly").link? 0 = some l := hl
    refine ⟨by simp [isLost, hl, hr, Reading.isEnded], ?_⟩
    simp [readerStep, isLost, setReader, link?_modifyLink, hl', Reading.isEnded]

theorem loses_failFrames {l : Link} (hl : i.link? 0 = some l) (hi : i.Linked) :
    Loses i (i.failFrames 0) where
  toKeepsLink := by
    have h := KeepsLink.setWriter_ended (i.abandon "Backend stopped reading its input") 0
    exact ⟨h.length, fun hi => h.linked ⟨hi.1, hi.2⟩, h.cut⟩
  documents := rfl
  collector := rfl
  announcements := announcements_modifyLink (i := i.abandon _) 0 fun _ => rfl
  unstopped hi := unstopped_modifyLink (fun _ => rfl) ⟨hi.1, hi.2⟩
  ended := by
    right
    have hl' : (i.abandon "Backend stopped reading its input").link? 0 = some l := hl
    refine ⟨⟨links_modifyLink_ne_nil ?_, ?_⟩, ?_⟩
    · intro hnil
      change i.links = [] at hnil
      simp [link?, hnil] at hl
    · refine canSend_eq_false fun m ho => ?_
      have hm : m = 0 := hi.outgoing m ho
      subst hm
      simp [failFrames, setWriter, writerEnded, link?_modifyLink, hl', Writing.isEnded]
    · simp [failFrames, isLost, setWriter, link?_modifyLink, hl', hl]

end Instance

end DiagnosticBroker
