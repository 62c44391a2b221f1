import DiagnosticBroker.Proofs.Collector.Accounts
import DiagnosticBroker.Proofs.Instance.Effect

/-!
# The waiters of an instance

The collector of an instance keeps account of the waiters that are held. While nobody stops the
instance, its subscriptions also end with its connection: once no frame can be queued any more,
nobody is registered.

Results:
* `kept_of_reachable`: the accounts of the collector are right in every run.
* `orderly_of_reachable`: in a run without a shutdown, an instance that is cut off has no
  subscriptions.
-/

namespace DiagnosticBroker

open Collector (Accounts)

/-! ## The waiters that are held -/

/-- The waiter of a holder that has not given it back. -/
def Holder.liveWaiter? (h : Holder) : Option Waiter := if h.isLive then some h.waiter else none

/-- The waiters that are held. -/
def liveWaiters (hs : List Holder) : List Waiter := hs.filterMap Holder.liveWaiter?

theorem mem_liveWaiters {hs : List Holder} {h : Holder} (hm : h ∈ hs) (hl : h.isLive = true) :
    h.waiter ∈ liveWaiters hs :=
  List.mem_filterMap.mpr ⟨h, hm, by simp [Holder.liveWaiter?, hl]⟩

theorem liveWaiters_append (hs : List Holder) {h : Holder} (hl : h.isLive = true) :
    liveWaiters (hs ++ [h]) = liveWaiters hs ++ [h.waiter] := by
  simp [liveWaiters, Holder.liveWaiter?, hl]

/-- A list around the element with an index. -/
theorem split_of_getElem? {α : Type} {l : List α} {n : Nat} {a : α} (h : l[n]? = some a) :
    ∃ l₁ l₂, l = l₁ ++ a :: l₂ ∧ ∀ b, l.set n b = l₁ ++ b :: l₂ := by
  obtain ⟨hn, rfl⟩ := List.getElem?_eq_some_iff.mp h
  refine ⟨l.take n, l.drop (n + 1), ?_, fun b => ?_⟩
  · rw [List.getElem_cons_drop, List.take_append_drop]
  · rw [List.set_eq_take_append_cons_drop, if_pos hn]

theorem mem_of_mem_set {hs : List Holder} {n : Nat} {h h' x : Holder} (hn : hs[n]? = some h)
    (hx : x ∈ hs.set n h') : x = h' ∨ x ∈ hs := by
  obtain ⟨l₁, l₂, rfl, hset⟩ := split_of_getElem? hn
  rw [hset] at hx
  simp only [List.mem_append, List.mem_cons] at hx ⊢
  rcases hx with hx | hx | hx
  · exact .inr (.inl hx)
  · exact .inl hx
  · exact .inr (.inr (.inr hx))

/-- The holder `y` is no other than `x`, but may have gone on, or given its waiter back. -/
structure Holder.Continues (x y : Holder) : Prop where
  waiter : y.waiter = x.waiter
  position : y.position = x.position
  isLate : y.isLate = x.isLate
  isLive : y.isLive = true → x.isLive = true

theorem continues_of_mem_set {hs : List Holder} {n : Nat} {h y : Holder} {p : Holder.Phase}
    (hn : hs[n]? = some h) (hl : h.isLive = true) (hy : y ∈ hs.set n { h with phase := p }) :
    ∃ x ∈ hs, x.Continues y := by
  rcases mem_of_mem_set hn hy with rfl | hy
  · exact ⟨h, List.mem_of_getElem? hn, rfl, rfl, rfl, fun _ => hl⟩
  · exact ⟨y, hy, rfl, rfl, rfl, id⟩

/-- A holder that does something else still holds its waiter. -/
theorem liveWaiters_set {hs : List Holder} {n : Nat} {h : Holder} {p : Holder.Phase}
    (hn : hs[n]? = some h) (hl : h.isLive = true)
    (hp : ({ h with phase := p } : Holder).isLive = true) :
    liveWaiters (hs.set n { h with phase := p }) = liveWaiters hs := by
  obtain ⟨l₁, l₂, rfl, hset⟩ := split_of_getElem? hn
  rw [hset]
  simp [liveWaiters, Holder.liveWaiter?, hl, hp]

/-- A holder that gives its waiter back is one waiter less. -/
theorem liveWaiters_set_dropped {hs : List Holder} {n : Nat} {h : Holder} (hn : hs[n]? = some h)
    (hl : h.isLive = true) :
    (liveWaiters hs).Perm
      (h.waiter :: liveWaiters (hs.set n { h with phase := .dropped })) := by
  obtain ⟨l₁, l₂, rfl, hset⟩ := split_of_getElem? hn
  rw [hset]
  have hd : ({ h with phase := .dropped } : Holder).isLive = false := rfl
  simp only [liveWaiters, List.filterMap_append, List.filterMap_cons, Holder.liveWaiter?, hl, hd,
    if_true, Bool.false_eq_true, if_false]
  exact List.perm_middle

namespace Scene

variable {P : Scene → Event → Prop} {s s' : Scene} {e : Event}

theorem isLive_of_moves {h : Holder} {p : Holder.Phase} (hp : Moves s h p) :
    ({ h with phase := p } : Holder).isLive = true := by
  cases hp <;> rfl

/-! ## Accounts -/

/-- What has been seen of a channel by somebody who waits for a quiet period: a snapshot, unless it
has been replaced since. -/
def Settling (c : Collector) (h : Holder) : Prop :=
  ∀ w, h.phase = .waiting w → ∀ deadline quietUntil seen,
    w.phase = .quiet deadline quietUntil seen →
    seen ≤ (c.channelOf h.waiter).revision ∧
      ((c.channelOf h.waiter).revision = seen →
        (c.channelOf h.waiter).snapshot.isPending = false)

theorem Settling.advances {c c' : Collector} {h : Holder} (hs : Settling c h)
    (ha : Collector.Advances c c' h.waiter) : Settling c' h := fun w hw =>
  have hheeds : Wait.Heeds c { w with waiter := h.waiter } := hs w hw
  hheeds.advances ha

/-- The collector keeps account of the waiters, each waits with its own, and those who wait for a
quiet period have seen a snapshot. -/
structure Kept (s : Scene) : Prop where
  accounts : Accounts s.client.collector (liveWaiters s.holders)
  waiting : ∀ h ∈ s.holders, ∀ w, h.phase = .waiting w → w.waiter = h.waiter
  settling : ∀ h ∈ s.holders, Settling s.client.collector h

theorem waiting_step (h : ∀ h ∈ s.holders, ∀ w, h.phase = .waiting w → w.waiter = h.waiter)
    (he : Effect s e s') : ∀ h ∈ s'.holders, ∀ w, h.phase = .waiting w → w.waiter = h.waiter := by
  cases he with
  | fares _ _ hh => rw [hh]; exact h
  | stops _ _ hh => rw [hh]; exact h
  | loses _ hh => rw [hh]; exact h
  | publishes _ _ _ hh => rw [hh]; exact h
  | rejects _ _ hh => rw [hh]; exact h
  | opens _ hh =>
    rw [hh]
    intro x hx w hw
    rcases List.mem_append.mp hx with hx | hx
    · exact h x hx w hw
    · rw [List.mem_singleton.mp hx] at hw
      cases hw
  | refuses _ hh => rw [hh]; exact h
  | closes _ hh => rw [hh]; exact h
  | drops hn _ _ hh =>
    rw [hh]
    intro x hx w hw
    rcases mem_of_mem_set hn hx with rfl | hx
    · cases hw
    · exact h x hx w hw
  | moves hn _ hp _ hh =>
    rw [hh]
    intro x hx w hw
    rcases mem_of_mem_set hn hx with rfl | hx
    · cases hp with
      | idle => cases hw
      | begins => cases hw; rfl
      | goesOn hw₀ hs =>
        cases hw
        rw [Wait.waiter_of_next hs]
        exact h _ (List.mem_of_getElem? hn) _ hw₀
    · exact h x hx w hw

theorem accounts_step (h : Accounts s.client.collector (liveWaiters s.holders))
    (he : Effect s e s') : Accounts s'.client.collector (liveWaiters s'.holders) := by
  cases he with
  | fares hi _ hh => rw [hi.collector, hh]; exact h
  | stops _ hi hh =>
    rw [hh]
    rcases hi.collector with hc | hc
    · rw [hc]
      exact h
    · rw [hc]
      exact Collector.accounts_disconnect h
  | loses hi hh => rw [hi.collector, hh]; exact Collector.accounts_disconnect h
  | publishes _ _ hi hh => rw [hi, hh]; exact Collector.accounts_publish h _ _
  | rejects _ hi hh => rw [hi, hh]; exact Collector.accounts_reject h _ _ _
  | opens hi hh =>
    rw [hh, liveWaiters_append _ rfl]
    exact (Collector.accounts_register h hi.registered).perm (List.perm_append_singleton _ _).symm
  | refuses hi hh =>
    rw [hh, hi.collector]
    exact Collector.accounts_release (Collector.accounts_register h rfl)
  | closes hi hh => rw [hi.collector, hh]; exact h
  | drops hn hl hi hh =>
    rw [hi, hh]
    exact Collector.accounts_release (h.perm (liveWaiters_set_dropped hn hl))
  | moves hn hl hp hi hh =>
    rw [hi, hh, liveWaiters_set hn hl (isLive_of_moves hp)]
    exact h

theorem settling_of_not_waiting {c : Collector} {h : Holder} (hn : ∀ w, h.phase ≠ .waiting w) :
    Settling c h := fun w hw => absurd hw (hn w)

/-- A holder that goes on waiting has seen what is there now. -/
theorem settling_of_moves {h : Holder} {p : Holder.Phase} (hp : Moves s h p)
    (hwaiter : ∀ w, h.phase = .waiting w → w.waiter = h.waiter) :
    Settling s.client.collector { h with phase := p } := by
  intro w hw deadline quietUntil seen hquiet
  cases hp with
  | idle => cases hw
  | begins => cases hw; cases hquiet
  | @goesOn w₀ _ hw₀ hs =>
    cases hw
    have hheeds := Wait.heeds_of_next hs deadline quietUntil seen hquiet
    rwa [Wait.waiter_of_next hs, hwaiter w₀ hw₀] at hheeds

theorem settling_step (hk : s.Kept) (he : Effect s e s') :
    ∀ h ∈ s'.holders, Settling s'.client.collector h := by
  have hold : ∀ {c : Collector}, (∀ h ∈ s.holders, h.isLive = true →
      Collector.Advances s.client.collector c h.waiter) →
      ∀ h ∈ s.holders, Settling c h := by
    intro c ha h hh
    cases hl : h.isLive with
    | true => exact (hk.settling h hh).advances (ha h hh hl)
    | false =>
      refine settling_of_not_waiting fun w hw => ?_
      rw [Holder.isLive, hw] at hl
      cases hl
  cases he with
  | fares hi _ hh => rw [hi.collector, hh]; exact hk.settling
  | stops _ hi hh =>
    rw [hh]
    rcases hi.collector with hc | hc
    · rw [hc]
      exact hk.settling
    · rw [hc]
      exact hold fun h _ _ => Collector.advances_disconnect _ _
  | loses hi hh =>
    rw [hi.collector, hh]
    exact hold fun h _ _ => Collector.advances_disconnect _ _
  | publishes _ _ hi hh =>
    rw [hi, hh]
    exact hold fun h _ _ => Collector.advances_publish hk.accounts.grounded _ _ _
  | rejects _ hi hh =>
    rw [hi, hh]
    exact hold fun h _ _ => Collector.advances_reject hk.accounts.grounded _ _ _ _
  | opens hi hh =>
    rw [hh]
    intro x hx
    rcases List.mem_append.mp hx with hx | hx
    · exact hold (fun h hh hl =>
        Collector.advances_register hk.accounts.grounded hi.registered
          (hk.accounts.inRange _ (mem_liveWaiters hh hl))) x hx
    · rw [List.mem_singleton.mp hx]
      exact settling_of_not_waiting fun w hw => by cases hw
  | @refuses uri _ hi hh =>
    rw [hh, hi.collector]
    refine hold fun h hh hl => ?_
    have hr : s.client.registration s.now uri =
      ((s.client.registration s.now uri).1, (s.client.registration s.now uri).2) := rfl
    exact (Collector.advances_register hk.accounts.grounded hr
      (hk.accounts.inRange _ (mem_liveWaiters hh hl))).trans (Collector.advances_release _ _ _)
  | closes hi hh => rw [hi.collector, hh]; exact hk.settling
  | drops hn _ hi hh =>
    rw [hi, hh]
    intro x hx
    rcases mem_of_mem_set hn hx with rfl | hx
    · exact settling_of_not_waiting fun w hw => by cases hw
    · exact hold (fun h _ _ => Collector.advances_release _ _ _) x hx
  | moves hn _ hp hi hh =>
    rw [hi, hh]
    intro x hx
    rcases mem_of_mem_set hn hx with rfl | hx
    · exact settling_of_moves hp (hk.waiting _ (List.mem_of_getElem? hn))
    · exact hk.settling x hx

theorem kept_of_reachable (hs : Reachable P s) : s.Kept := by
  refine hs.induct (I := Kept) (fun _ _ _ _ _ _ _ => ?_) fun s e s' _ ih _ he => ?_
  · exact ⟨Collector.accounts_nil _ rfl rfl, by simp [new], by simp [new]⟩
  · exact ⟨accounts_step ih.accounts he, waiting_step ih.waiting he, settling_step ih he⟩

/-! ## Runs without a shutdown -/

/-- Nobody stops the instance, and it has no subscriptions if frames cannot be queued. -/
structure Orderly (s : Scene) : Prop where
  unstopped : s.client.Unstopped
  silent : s.client.canSend = false → ∀ u, s.client.collector.subscriptions.lookup u = none

/-- Where there are no subscriptions, a registration founds one. -/
theorem founds_registration {i : Instance}
    (h : ∀ u, i.collector.subscriptions.lookup u = none) (now : Time) (uri : String) :
    Collector.Founds i.collector now uri (i.nextVersion uri) (i.registration now uri).1
      (i.registration now uri).2 := by
  have hr : i.registration now uri = ((i.registration now uri).1, (i.registration now uri).2) := rfl
  obtain ⟨s, hj⟩ | hf := Collector.joins_or_founds hr
  · have hfound := hj.found
    rw [h] at hfound
    cases hfound
  · exact hf

/-- An opening that fails leaves no subscription where there was none. -/
theorem lookup_release_registration {i : Instance}
    (h : ∀ u, i.collector.subscriptions.lookup u = none) (now : Time) (uri u : String) :
    ((i.registration now uri).1.release (i.registration now uri).2).subscriptions.lookup u =
      none := by
  have hf := founds_registration h now uri
  have hw : (i.registration now uri).2.uri = uri := by rw [hf.waiter]
  have hid : (i.registration now uri).2.subscription = i.collector.channels.length := by
    rw [hf.waiter]
  have hself := hf.lookup uri
  rw [if_pos rfl] at hself
  rcases Collector.release_cases (i.registration now uri).1 (i.registration now uri).2 with
    ⟨-, hother⟩ | ⟨s, hs, -, ⟨-, -, -, hl⟩ | ⟨hmore, -⟩⟩
  · rw [hw] at hother
    exact absurd hid.symm (hother _ hself)
  · rw [hl, hw, hf.lookup, h]
    by_cases hu : u = uri
    · rw [if_pos hu]
    · rw [if_neg hu, if_neg hu]
  · rw [hw, hself] at hs
    cases hs
    exact absurd hmore (by simp)

/-- While frames cannot be queued, nobody gets a subscription. -/
theorem lookup_of_effect (hc : s.client.canSend = false)
    (h : ∀ u, s.client.collector.subscriptions.lookup u = none) (he : Effect s e s') (u : String) :
    s'.client.collector.subscriptions.lookup u = none := by
  cases he with
  | fares hi => rw [hi.collector]; exact h u
  | stops _ hi =>
    rcases hi.collector with heq | heq
    · rw [heq]
      exact h u
    · rw [heq]
      rfl
  | loses hi => rw [hi.collector]; rfl
  | @publishes p _ _ hi =>
    rw [hi]
    change (s.client.collector.publish s.now p).subscriptions.lookup u = none
    rcases Collector.publish_cases s.client.collector s.now p with ⟨sub, hs, -⟩ | ⟨-, heq⟩
    · rw [h] at hs
      cases hs
    · rw [heq]
      have ht := Collector.thins_withRoom s.client.collector s.now (s.client.collector.subject p)
      exact (congrArg (·.lookup u) ht.subscriptions).trans (h u)
  | @rejects uri reason version _ hi =>
    rw [hi]
    change (s.client.collector.reject uri version reason).1.subscriptions.lookup u = none
    obtain ⟨c', ht, heq | ⟨sub, hs, -⟩⟩ :=
      Collector.reject_cases s.client.collector uri version reason
    · rw [heq, ht.subscriptions]
      exact h u
    · rw [h] at hs
      cases hs
  | opens hi =>
    rw [hi.sends] at hc
    cases hc
  | @refuses uri _ hi =>
    rw [hi.collector]
    exact lookup_release_registration h s.now uri u
  | closes hi => rw [hi.collector]; exact h u
  | @drops n x _ _ hi =>
    rw [hi]
    change (s.client.collector.release x.waiter).subscriptions.lookup u = none
    rcases Collector.release_cases s.client.collector x.waiter with ⟨heq, -⟩ | ⟨sub, hs, -⟩
    · rw [heq]
      exact h u
    · rw [h] at hs
      cases hs
  | moves _ _ _ hi => rw [hi]; exact h u

theorem orderly_step (h : s.Orderly) (hstop : e.isStop = false) (he : Effect s e s') :
    s'.Orderly := by
  have hkeeps : ∀ {i : Instance}, (s.client.Unstopped → i.Unstopped) →
      (s.client.Unstopped → s.client.canSend = true → i.canSend = true) →
      s'.client = i → s'.Orderly := by
    rintro i hu hsend rfl
    refine ⟨hu h.unstopped, fun hi => ?_⟩
    cases hc : s.client.canSend with
    | true =>
      rw [hsend h.unstopped hc] at hi
      cases hi
    | false => exact lookup_of_effect hc (h.silent hc) he
  have hcollector : ∀ {c}, s'.client = s.client.withCollector c → s'.Orderly :=
    hkeeps (Instance.keeps_withCollector _ _).unstopped (Instance.keeps_withCollector _ _).canSend
  cases he with
  | fares hi => exact hkeeps hi.unstopped hi.canSend rfl
  | stops he => rw [he] at hstop; cases hstop
  | loses hi => exact ⟨hi.unstopped h.unstopped, fun _ u => by rw [hi.collector]; rfl⟩
  | publishes _ _ hi | rejects _ hi | drops _ _ hi => exact hcollector hi
  | opens hi => exact hkeeps hi.unstopped hi.canSend rfl
  | refuses hi => exact hkeeps hi.unstopped hi.canSend rfl
  | closes hi => exact hkeeps hi.unstopped hi.canSend rfl
  | moves _ _ _ hi => exact hkeeps id (fun _ => id) hi

theorem orderly_of_reachable (hP : ∀ s e, P s e → e.isStop = false) (hs : Reachable P s) :
    s.Orderly := by
  refine hs.induct (I := Orderly) (fun _ _ _ _ _ _ _ => ?_) fun s e s' _ ih hp he =>
    orderly_step ih (hP s e hp) he
  exact ⟨⟨by simp [new, Instance.new], by simp [new, Instance.new]⟩, fun _ _ => rfl⟩

end Scene

end DiagnosticBroker
