import DiagnosticBroker.Proofs.Collector.Waits
import DiagnosticBroker.Proofs.Instance.Waiters

/-!
# Waiting on a lost stream

When the reader of an instance has ended, all subscriptions of that moment end with it, so that
everybody who waits then is told at once. Documents can still be opened afterwards as long as the
writer goes on: nobody looks whether there is still a reader. Whoever opens one then, waits in vain
until the time is up, and cannot tell this from a backend that is silent.

The invariant `Lost` says what the channels of a lost stream look like: those of earlier waiters are
closed, those of late ones are empty, and open unless the writer has ended, too.

Results:
* `lost_of_reachable`: the channels of a lost stream in every run without a shutdown.
* `silence_after_loss`: who runs into a timeout on a lost stream, and who does not.
-/

namespace DiagnosticBroker.Scene

open Collector (Accounts)

variable {P : Scene → Event → Prop} {s s' : Scene} {e : Event} {i j : Instance} {hs : List Holder}

/-- What the holders of waiters find in their channels once the stream is lost. -/
structure Lost (i : Instance) (hs : List Holder) : Prop where
  early : i.isLost = false → ∀ h ∈ hs, h.isLate = false
  unclaimed : i.isLost = true → i.collector.unclaimed = []
  closed : i.isLost = true → ∀ h ∈ hs, h.isLive = true → h.isLate = false →
    i.collector.isClosed h.waiter.subscription = true
  pending : i.isLost = true → ∀ h ∈ hs, h.isLive = true → h.isLate = true →
    (i.collector.channelOf h.waiter).snapshot.isPending = true
  cut : i.isLost = true → ∀ h ∈ hs, h.isLive = true → h.isLate = true →
    i.collector.isClosed h.waiter.subscription = true → i.IsCut

/-- Nothing changes as long as the channels that are looked at stay as they are. -/
theorem Lost.congr (h : Lost i hs) (hlost : j.isLost = i.isLost)
    (hu : ∀ u ∈ j.collector.unclaimed, u ∈ i.collector.unclaimed)
    (hcut : i.IsCut → j.IsCut)
    (hclosed : ∀ x ∈ hs, x.isLive = true →
      j.collector.isClosed x.waiter.subscription = i.collector.isClosed x.waiter.subscription)
    (hsnap : ∀ x ∈ hs, x.isLive = true →
      (j.collector.channelOf x.waiter).snapshot = (i.collector.channelOf x.waiter).snapshot) :
    Lost j hs where
  early hl := h.early (by rw [← hlost]; exact hl)
  unclaimed hl := by
    have hnil := h.unclaimed (by rw [← hlost]; exact hl)
    refine List.eq_nil_iff_forall_not_mem.mpr fun u hmem => ?_
    have hmem' := hu u hmem
    rw [hnil] at hmem'
    cases hmem'
  closed hl x hx hlive hlate := by
    rw [hclosed x hx hlive]
    exact h.closed (by rw [← hlost]; exact hl) x hx hlive hlate
  pending hl x hx hlive hlate := by
    rw [hsnap x hx hlive]
    exact h.pending (by rw [← hlost]; exact hl) x hx hlive hlate
  cut hl x hx hlive hlate hc := by
    rw [hclosed x hx hlive] at hc
    exact hcut (h.cut (by rw [← hlost]; exact hl) x hx hlive hlate hc)

theorem Lost.of_collector (h : Lost i hs) (hlost : j.isLost = i.isLost)
    (hc : j.collector = i.collector) (hcut : i.IsCut → j.IsCut) : Lost j hs :=
  h.congr hlost (by rw [hc]; exact fun _ hu => hu) hcut (fun _ _ _ => by rw [hc])
    fun _ _ _ => by rw [hc]

/-- Before the stream is lost, there is nothing to say. -/
theorem Lost.of_not_lost (h : Lost i hs) (hi : i.isLost = false) (hj : j.isLost = false) :
    Lost j hs where
  early _ := h.early hi
  unclaimed hl := by rw [hj] at hl; cases hl
  closed hl := by rw [hj] at hl; cases hl
  pending hl := by rw [hj] at hl; cases hl
  cut hl := by rw [hj] at hl; cases hl

/-- The loss of the stream closes all channels, and so does that of the writer. -/
theorem Lost.loses (h : Lost i hs) (ha : Accounts i.collector (liveWaiters hs))
    (hl : i.Loses j) : Lost j hs := by
  have hclosed : ∀ id, j.collector.isClosed id = true := by
    intro id
    rw [hl.collector]
    exact Collector.isClosed_disconnect_of_accounts ha id
  have hsnap : ∀ x, (j.collector.channelOf x).snapshot = (i.collector.channelOf x).snapshot := by
    intro x
    obtain ⟨b, hb⟩ := Collector.channelOf_disconnect i.collector x
    rw [hl.collector, hb]
  rcases hl.ended with ⟨hi, hj⟩ | ⟨hcut, hsame⟩
  · refine ⟨fun h' => ?_, fun _ => ?_, fun _ x _ _ _ => hclosed _, fun _ x hx _ hlate => ?_,
      fun _ x hx _ hlate _ => ?_⟩
    · rw [hj] at h'
      cases h'
    · rw [hl.collector]
      rfl
    · rw [h.early hi x hx] at hlate
      cases hlate
    · rw [h.early hi x hx] at hlate
      cases hlate
  · refine ⟨fun h' => h.early (by rw [← hsame]; exact h'), fun _ => ?_,
      fun _ x _ _ _ => hclosed _, fun h' x hx hlive hlate => ?_, fun _ _ _ _ _ _ => hcut⟩
    · rw [hl.collector]
      rfl
    · rw [hsnap]
      exact h.pending (by rw [← hsame]; exact h') x hx hlive hlate

/-- Whoever opens a document late starts with an empty channel, and so do all who share it. -/
theorem Lost.opens {now : Time} {uri : String} {waiter : Waiter} {position : Nat}
    (h : Lost i hs) (ha : Accounts i.collector (liveWaiters hs))
    (hlost : j.isLost = i.isLost) (hcut : i.IsCut → j.IsCut)
    (hr : i.registration now uri = (j.collector, waiter)) :
    Lost j (hs ++ [⟨waiter, position, i.isLost, .idle⟩]) := by
  cases hi : i.isLost with
  | false =>
    rw [hi] at hlost
    refine ⟨fun _ x hx => ?_, fun h' => ?_, fun h' => ?_, fun h' => ?_, fun h' => ?_⟩
    · rcases List.mem_append.mp hx with hx | hx
      · exact h.early hi x hx
      · rw [List.mem_singleton.mp hx]
    all_goals
      rw [hlost] at h'
      cases h'
  | true =>
    have hnone : i.collector.unclaimed = [] := h.unclaimed hi
    have hseed : i.collector.seedFor now uri (i.nextVersion uri) = .pending := by
      simp [Collector.seedFor, Collector.prune, hnone, Collector.seed]
    have hclosed : ∀ x ∈ hs, x.isLive = true →
        j.collector.isClosed x.waiter.subscription =
          i.collector.isClosed x.waiter.subscription := fun x hx hlive =>
      Collector.isClosed_register_of_mem ha hr (mem_liveWaiters hx hlive)
    rw [hi] at hlost
    refine ⟨fun h' => ?_, fun _ => ?_, fun _ x hx hlive hlate => ?_, fun _ x hx hlive hlate => ?_,
      fun _ x hx hlive hlate hc => ?_⟩
    · rw [hlost] at h'
      cases h'
    · rw [Collector.unclaimed_of_register hr]
      simp [Collector.remaining, Collector.prune, Collector.forget, hnone]
    · rcases List.mem_append.mp hx with hx | hx
      · rw [hclosed x hx hlive]
        exact h.closed hi x hx hlive hlate
      · rw [List.mem_singleton.mp hx] at hlate
        cases hlate
    · rcases List.mem_append.mp hx with hx | hx
      · rcases Collector.snapshot_register_of_mem ha hr (mem_liveWaiters hx hlive) with heq | heq
        · rw [heq]
          exact h.pending hi x hx hlive hlate
        · rw [heq, hseed]
          rfl
      · rw [List.mem_singleton.mp hx, Collector.snapshot_of_register ha hr, hseed]
        rfl
    · rcases List.mem_append.mp hx with hx | hx
      · rw [hclosed x hx hlive] at hc
        exact hcut (h.cut hi x hx hlive hlate hc)
      · rw [List.mem_singleton.mp hx, Collector.isClosed_of_register ha hr] at hc
        cases hc

/-- An opening that fails leaves the channels of all others. -/
theorem Lost.refuses {now : Time} {uri : String} (h : Lost i hs)
    (ha : Accounts i.collector (liveWaiters hs))
    (hnone : ∀ u, i.collector.subscriptions.lookup u = none) (hlost : j.isLost = i.isLost)
    (hcut : i.IsCut → j.IsCut)
    (hc : j.collector = (i.registration now uri).1.release (i.registration now uri).2) :
    Lost j hs := by
  have hf := founds_registration hnone now uri
  have hacc : Accounts (i.registration now uri).1 ((i.registration now uri).2 :: liveWaiters hs) :=
    Collector.accounts_register ha rfl
  refine h.congr hlost (fun u hu => ?_) hcut (fun x hx hlive => ?_) fun x hx hlive => ?_
  · rw [hc, Collector.unclaimed_release, hf.unclaimed] at hu
    exact Collector.mem_of_mem_remaining hu
  · have hmem := mem_liveWaiters hx hlive
    have hlt := ha.inRange _ hmem
    rw [hc, Collector.isClosed_release_of_mem hacc hmem, hf.isClosed, if_neg (by omega)]
  · rw [hc, Collector.snapshot_release,
      hf.channelOf_of_lt (ha.inRange _ (mem_liveWaiters hx hlive))]

/-- Whoever goes on with one's waiter is the same holder. -/
theorem Lost.of_holders {hs' : List Holder} (h : Lost i hs)
    (hh : ∀ y ∈ hs', ∃ x ∈ hs, x.Continues y) : Lost i hs' where
  early hl y hy := by
    obtain ⟨x, hx, hxy⟩ := hh y hy
    rw [hxy.isLate]
    exact h.early hl x hx
  unclaimed := h.unclaimed
  closed hl y hy hlive hlate := by
    obtain ⟨x, hx, hxy⟩ := hh y hy
    rw [hxy.isLate] at hlate
    rw [hxy.waiter]
    exact h.closed hl x hx (hxy.isLive hlive) hlate
  pending hl y hy hlive hlate := by
    obtain ⟨x, hx, hxy⟩ := hh y hy
    rw [hxy.isLate] at hlate
    rw [hxy.waiter]
    exact h.pending hl x hx (hxy.isLive hlive) hlate
  cut hl y hy hlive hlate hc := by
    obtain ⟨x, hx, hxy⟩ := hh y hy
    rw [hxy.isLate] at hlate
    rw [hxy.waiter] at hc
    exact h.cut hl x hx (hxy.isLive hlive) hlate hc

/-- A holder that drops its waiter closes nobody else's channel. -/
theorem Lost.drops {n : Nat} {x : Holder} (h : Lost i hs)
    (ha : Accounts i.collector (liveWaiters hs)) (hn : hs[n]? = some x) (hl : x.isLive = true) :
    Lost (i.releaseWaiter x.waiter) (hs.set n { x with phase := .dropped }) := by
  have hrest : Lost i (hs.set n { x with phase := .dropped }) :=
    h.of_holders fun _ hy => continues_of_mem_set hn hl hy
  have hacc := ha.perm (liveWaiters_set_dropped hn hl)
  refine hrest.congr rfl (fun u hu => ?_) id (fun y hy hlive => ?_) fun y hy _ => ?_
  · rw [← Collector.unclaimed_release i.collector x.waiter]
    exact hu
  · exact Collector.isClosed_release_of_mem hacc (mem_liveWaiters hy hlive)
  · exact Collector.snapshot_release i.collector x.waiter y.waiter

/-- Every effect of an event keeps what is said of a lost stream. -/
theorem lost_step (hk : s.Kept) (ho : s.Orderly) (h : Lost s.client s.holders)
    (hstop : e.isStop = false) (he : Effect s e s') : Lost s'.client s'.holders := by
  cases he with
  | fares hi _ hh => rw [hh]; exact h.of_collector (hi.isLost ho.unstopped) hi.collector hi.cut
  | stops he => rw [he] at hstop; cases hstop
  | loses hi hh => rw [hh]; exact h.loses hk.accounts hi
  | publishes _ hr hi hh => rw [hi, hh]; exact h.of_not_lost hr hr
  | rejects hr hi hh => rw [hi, hh]; exact h.of_not_lost hr hr
  | opens hi hh =>
    rw [hh]
    exact h.opens hk.accounts (hi.isLost ho.unstopped) hi.cut hi.registered
  | refuses hi hh =>
    rw [hh]
    exact h.refuses hk.accounts (ho.silent hi.cannotSend) (hi.isLost ho.unstopped) hi.cut
      hi.collector
  | closes hi hh => rw [hh]; exact h.of_collector (hi.isLost ho.unstopped) hi.collector hi.cut
  | drops hn hl hi hh => rw [hi, hh]; exact h.drops hk.accounts hn hl
  | moves hn hl hp hi hh =>
    rw [hi, hh]
    exact h.of_holders fun _ hy => continues_of_mem_set hn hl hy

theorem lost_of_reachable (hP : ∀ s e, P s e → e.isStop = false) (hs : Reachable P s) :
    Lost s.client s.holders := by
  refine hs.induct (I := fun s => Lost s.client s.holders)
    (fun backend budget roots directory launch isProcess clientProcess => ?_)
    fun s e s' hr ih hp he => ?_
  · have hl : (new backend budget roots directory launch isProcess clientProcess).client.isLost =
        false := rfl
    refine ⟨fun _ => by simp [new], fun h => ?_, fun h => ?_, fun h => ?_, fun h => ?_⟩
    all_goals
      rw [hl] at h
      cases h
  · exact lost_step (kept_of_reachable hr) (orderly_of_reachable hP hr) ih (hP s e hp) he

/-! ## Timeouts -/

/-- **Silence after the loss of the stream.** In a run without a shutdown, a wait only times out
while there is a reader, or for somebody who opened the document when there was none any more.
Whoever opened it before is never kept waiting by a lost stream: the wait goes on at once, and ends
with a snapshot that had come, or with the news that the backend is gone. Whoever opens it later is
never answered: the wait ends with the time, unless the writer has ended as well. Once frames cannot
be queued, an opening fails with a fault that asks for a restart. -/
theorem silence_after_loss (hP : ∀ s e, P s e → e.isStop = false) (hs : Reachable P s) {n : Nat}
    {h : Holder} {w : Wait} (hn : s.holders[n]? = some h) (hw : h.phase = .waiting w) :
    (∀ c text, w.step s.now s.client.collector = .done c (.error (.timedOut text)) →
      s.client.isLost = false ∨ h.isLate = true) ∧
    (s.client.isLost = true → h.isLate = false →
      (w.step s.now s.client.collector).isBlocked = false ∧
      ∀ c r, w.step s.now s.client.collector = .done c r →
        r = .error .notConnected ∨
          (s.client.collector.channelOf w.waiter).snapshot.isPending = false ∧
            r = Wait.outcomeOf w.waiter.uri (s.client.collector.channelOf w.waiter).snapshot) ∧
    (s.client.isLost = true → h.isLate = true →
      ∀ c r, w.step s.now s.client.collector = .done c r →
        r = .error w.timedOut ∨ r = .error .notConnected ∧ s.client.canSend = false) ∧
    (s.client.canSend = false → ∀ uri languageId text, ∃ j fault,
      s.client.openDocument s.now uri languageId text = (j, .error fault) ∧
        fault.needsRestart = true) := by
  have hk := kept_of_reachable hs
  have ho := orderly_of_reachable hP hs
  have hlost := lost_of_reachable hP hs
  have hmem := List.mem_of_getElem? hn
  have hlive : h.isLive = true := by rw [Holder.isLive, hw]
  have hwaiter : w.waiter = h.waiter := hk.waiting h hmem w hw
  have hclosed : (s.client.collector.channelOf w.waiter).closed =
      s.client.collector.isClosed h.waiter.subscription := by
    rw [hwaiter]
    exact Collector.closed_channelOf _ _
  refine ⟨fun c text hd => ?_, fun hl hlate => ?_, fun hl hlate c r hd => ?_,
    fun hsend uri languageId text => ?_⟩
  · cases hl : s.client.isLost with
    | false => exact .inl rfl
    | true =>
      right
      by_contra hlate
      have hopen := Wait.isOpen_of_timedOut hd
      rw [hclosed, hlost.closed hl h hmem hlive (by simpa using hlate)] at hopen
      cases hopen
  · exact Wait.step_of_closed (hclosed.trans (hlost.closed hl h hmem hlive hlate))
  · have hp : (s.client.collector.channelOf w.waiter).snapshot.isPending = true := by
      rw [hwaiter]
      exact hlost.pending hl h hmem hlive hlate
    have hq : ∀ deadline quietUntil seen, w.phase = .quiet deadline quietUntil seen →
        (s.client.collector.channelOf w.waiter).revision ≠ seen := by
      intro deadline quietUntil seen hquiet hr
      rw [hwaiter] at hp hr
      rw [(hk.settling h hmem w hw deadline quietUntil seen hquiet).2 hr] at hp
      cases hp
    rcases Wait.done_of_pending hp hq hd with hr | ⟨hr, hc⟩
    · exact .inl hr
    · rw [hclosed] at hc
      exact .inr ⟨hr, (hlost.cut hl h hmem hlive hlate hc).2⟩
  · obtain ⟨j, f, hj, hr⟩ :=
      Instance.refuses_of_not_canSend hsend s.now uri languageId text
    refine ⟨j, f, hj, ?_⟩
    rcases hr.fault_eq with rfl | rfl
    · rfl
    · rfl

/-- The stream is lost, a document is opened all the same, and its waiter waits for a
millisecond. -/
def openingLate : List Event :=
  connecting ++ [.lose, .read, .opens "a" "python" "x", .wait 0 (.ofMillis 1) .zero, .look 0,
    .elapse 2]

/-- What has become of it. -/
def openedLate : Scene := (sample.run openingLate).getD sample

def waitingLate : Wait := ⟨⟨"a", 1, 0⟩, .ofMillis 1, .zero, .snapshot 1⟩

/-- Somebody who opened a document late runs into a timeout, although there is no reader. -/
theorem silence_after_loss_late :
    openedLate.client.isLost = true ∧
      waitingLate.step openedLate.now openedLate.client.collector =
        .done openedLate.client.collector (.error waitingLate.timedOut) ∧
      ∃ h, openedLate.holders[0]? = some h ∧ h.isLate = true := by
  have hrun : sample.run openingLate = some openedLate := by rfl
  have hreach : Reachable (fun _ e => e.isStop = false) openedLate :=
    Reachable.of_run (.new _ _ _ _ _ _ _) (fun _ => by simp [openingLate, connecting, Event.isStop])
      hrun
  have hn : openedLate.holders[0]? = some ⟨⟨"a", 1, 0⟩, 0, true, .waiting waitingLate⟩ := by rfl
  have hlost : openedLate.client.isLost = true := by rfl
  have hstep : waitingLate.step openedLate.now openedLate.client.collector =
      .done openedLate.client.collector (.error waitingLate.timedOut) := by rfl
  have hlate := (silence_after_loss (fun _ _ h => h) hreach hn rfl).1 _ _ hstep
  exact ⟨hlost, hstep, _, hn, hlate.resolve_left (by simp [hlost])⟩

end DiagnosticBroker.Scene
