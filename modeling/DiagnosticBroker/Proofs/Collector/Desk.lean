import DiagnosticBroker.Proofs.Collector.Accounts
import DiagnosticBroker.Proofs.Collector.Waits
import Mathlib.Data.List.Nodup
import Mathlib.Data.List.Perm.Basic
import Mathlib.Tactic.SplitIfs

/-!
# Waiters come and go

A `Desk` is a collector together with the waiters that are held, and the wait that is under way on
each. A `Desk.Event` is one operation of the collector, one step of a wait, or time that passes, and
`Desk.act` says what it does; any order of events is a run. A desk counts how often the backend has
gone, and each waiter knows the count of the moment when it was handed out.

`Balanced` is the invariant: the accounts of the collector are right, and a channel is closed under
somebody who still looks at it only because the backend has gone since.

Results:
* `balanced_of_act`: every event keeps it.
* `awaits_iff_of_reachable`: who waits for a document through its subscription.
* `accounted_of_reachable`: what it means for the subscriptions and for those who wait.
-/

namespace DiagnosticBroker

namespace Collector

variable {c c' : Collector} {now : Time} {uri : String} {version : Int} {opened : Bool}
  {w : Waiter}

/-! ## The list of subscriptions -/

/-- No document has two subscriptions. -/
def Keyed (c : Collector) : Prop := (c.subscriptions.map (·.1)).Nodup

theorem mem_subscriptions_iff (h : c.Keyed) {sub : Subscription} :
    (uri, sub) ∈ c.subscriptions ↔ c.subscriptions.lookup uri = some sub :=
  ⟨Assoc.lookup_of_mem h, Assoc.mem_of_lookup⟩

theorem Keyed.congr (h : c.Keyed) (hs : c'.subscriptions = c.subscriptions) : c'.Keyed := by
  rwa [Keyed, hs]

theorem Keyed.filter (h : c.Keyed) (uri : String) :
    ((c.subscriptions.filter fun e => e.1 ≠ uri).map (·.1)).Nodup :=
  h.sublist (List.filter_sublist.map _)

theorem Keyed.putSubscription (h : c.Keyed) (uri : String) (sub : Subscription) :
    (c.putSubscription uri sub).Keyed := by
  refine List.nodup_cons.mpr ⟨fun hmem => ?_, h.filter uri⟩
  obtain ⟨e, he, heq⟩ := List.mem_map.mp hmem
  have hne : e.1 ≠ uri := by simpa using (List.mem_filter.mp he).2
  exact hne heq

theorem Keyed.register (h : c.Keyed) (now : Time) (uri : String) (version : Int)
    (opened : Bool) : (c.register now uri version opened).1.Keyed := by
  have hleft : ((c.prune now).forget uri).Keyed := h
  unfold Collector.register
  simp only
  split
  · exact hleft.putSubscription uri _
  · exact Keyed.putSubscription (c := { (c.prune now).forget uri with channels := _ }) hleft uri _

theorem Keyed.release (h : c.Keyed) (w : Waiter) : (c.release w).Keyed := by
  unfold Collector.release
  split
  · exact h
  · split_ifs
    · exact h
    · exact h.filter w.uri
    · exact h.putSubscription w.uri _

/-! ## What backends do to channels -/

theorem subscriptions_publish (c : Collector) (now : Time) (p : Wire.Publish) :
    (c.publish now p).subscriptions = c.subscriptions := by
  rcases publish_cases c now p with ⟨s, -, ⟨-, heq⟩ | ⟨-, heq⟩⟩ | ⟨-, heq⟩
  · rw [heq]
  · rw [heq]
    rfl
  · rw [heq]
    exact (thins_withRoom c now (c.subject p)).subscriptions

theorem isClosed_publish (c : Collector) (now : Time) (p : Wire.Publish) (id : Nat) :
    (c.publish now p).isClosed id = c.isClosed id := by
  rcases publish_cases c now p with ⟨s, -, ⟨-, heq⟩ | ⟨-, heq⟩⟩ | ⟨-, heq⟩
  · rw [heq]
  · rw [heq, isClosed_send]
  · rw [heq]
    exact isClosed_congr (thins_withRoom c now (c.subject p)).channels id

theorem subscriptions_reject (c : Collector) (uri : String) (version : Option Int)
    (reason : String) : (c.reject uri version reason).1.subscriptions = c.subscriptions := by
  obtain ⟨c', ht, heq | ⟨s, -, -, heq⟩⟩ := reject_cases c uri version reason
  · rw [heq, ht.subscriptions]
  · rw [heq]
    exact ht.subscriptions

theorem isClosed_reject (c : Collector) (uri : String) (version : Option Int) (reason : String)
    (id : Nat) : (c.reject uri version reason).1.isClosed id = c.isClosed id := by
  obtain ⟨c', ht, heq | ⟨s, -, -, heq⟩⟩ := reject_cases c uri version reason
  · rw [heq, isClosed_congr ht.channels]
  · rw [heq, isClosed_send, isClosed_congr ht.channels]

/-! ## What a waiter that is given back leaves alone -/

/-- Giving a waiter back leaves what is seen through other channels. -/
theorem channelOf_release_of_ne {x : Waiter} (hx : x.subscription ≠ w.subscription) :
    (c.release w).channelOf x = c.channelOf x := by
  rcases release_cases c w with ⟨heq, -⟩ | ⟨s, -, hid, ⟨-, hch, -, -⟩ | ⟨-, hch, -, -⟩⟩
  · rw [heq]
  · rw [channelOf_congr hch, channelOf_close, if_neg (by rw [hid]; exact hx)]
  · exact channelOf_congr hch x

/-- Giving a waiter back leaves all subscriptions but its own. -/
theorem lookup_release_iff {u : String} {sub : Subscription}
    (hsub : sub.id ≠ w.subscription) :
    (c.release w).subscriptions.lookup u = some sub ↔ c.subscriptions.lookup u = some sub := by
  rcases release_cases c w with ⟨heq, -⟩ | ⟨s, hs, hid, ⟨-, -, -, hl⟩ | ⟨-, -, -, hl⟩⟩
  · rw [heq]
  · rw [hl]
    split_ifs with hu
    · refine ⟨fun h => (by cases h), fun h => ?_⟩
      rw [hu, hs] at h
      cases h
      exact absurd hid hsub
    · rfl
  · rw [hl]
    split_ifs with hu
    · constructor
      · intro h
        cases h
        exact absurd hid hsub
      · intro h
        rw [hu, hs] at h
        cases h
        exact absurd hid hsub
    · rfl

end Collector

open Collector (Accounts waitersOf)

/-- A wait is told that there is no connection only if its channel is closed. -/
theorem Wait.isClosed_of_notConnected {now : Time} {c c' : Collector} {w : Wait}
    (h : w.step now c = .done c' (.error .notConnected)) :
    c.isClosed w.waiter.subscription = true := by
  have hne : ∀ x, outcomeOf w.waiter.uri x ≠ .error .notConnected := by
    intro x hx
    cases x <;> cases hx
  have hs := steps now c w
  rw [h] at hs
  rw [← Collector.closed_channelOf]
  generalize hr : (Except.error .notConnected : Outcome) = r at hs
  cases hs with
  | taken | settled => exact absurd hr.symm (hne _)
  | gone _ _ hc | cutOff _ _ hc => exact hc
  | late => cases hr

/-! ## Desks -/

/-- A waiter that is held. -/
structure Handle where
  waiter : Waiter
  /-- How often the backend had gone when the waiter was handed out. -/
  since : Nat
  /-- The wait that is under way. -/
  wait? : Option Wait := none

/-- A collector and the waiters that are held. -/
structure Desk where
  now : Time := 0
  collector : Collector
  handles : List Handle := []
  /-- How often the backend has gone. -/
  losses : Nat := 0

/-- One thing that can happen. Waiters are named by their places among those that are held. -/
inductive Desk.Event where
  | elapse (duration : Nat)
  | register (uri : String) (version : Int) (opened : Bool)
  | publish (publish : Wire.Publish)
  | reject (uri : String) (version : Option Int) (reason : String)
  | disconnect
  /-- A waiter is given back. -/
  | drop (n : Nat)
  /-- A wait begins. -/
  | wait (n : Nat) (timeout settle : Duration)
  /-- A step of a wait. -/
  | look (n : Nat)
  /-- A wait is given up, but not its waiter. -/
  | turnAway (n : Nat)

namespace Desk

/-- A collector that nobody has used. -/
def new (retention : Duration) (directory : String) : Desk where
  collector := { retention := retention, directory := directory }

/-- The waiters that are held. -/
def waiters (s : Desk) : List Waiter := s.handles.map (·.waiter)

def setWait (s : Desk) (n : Nat) (h : Handle) (wait? : Option Wait) : Desk :=
  { s with handles := s.handles.set n { h with wait? := wait? } }

/-- What an event does; `none` if it cannot happen now. -/
def act (s : Desk) : Event → Option Desk
  | .elapse d => some { s with now := s.now + d }
  | .register uri version opened =>
    let r := s.collector.register s.now uri version opened
    some { s with collector := r.1, handles := s.handles ++ [⟨r.2, s.losses, none⟩] }
  | .publish p => some { s with collector := s.collector.publish s.now p }
  | .reject uri version reason =>
    some { s with collector := (s.collector.reject uri version reason).1 }
  | .disconnect => some { s with collector := s.collector.disconnect, losses := s.losses + 1 }
  | .drop n =>
    s.handles[n]?.map fun h =>
      { s with collector := s.collector.release h.waiter, handles := s.handles.eraseIdx n }
  | .wait n timeout settle => do
    let h ← s.handles[n]?
    match h.wait? with
    | none => some (s.setWait n h (some ⟨h.waiter, timeout, settle, .begin⟩))
    | some _ => none
  | .look n => do
    let h ← s.handles[n]?
    let w ← h.wait?
    match w.step s.now s.collector with
    | .blocked _ => none
    | .next _ w => some (s.setWait n h (some w))
    | .later _ w => some (s.setWait n h (some w))
    | .done _ _ => some (s.setWait n h none)
  | .turnAway n => s.handles[n]?.map fun h => s.setWait n h none

/-- One event after the other. -/
def run (s : Desk) : List Event → Option Desk
  | [] => some s
  | e :: es => (s.act e).bind fun s => s.run es

/-- What can come of a collector that nobody has used. -/
inductive Reachable : Desk → Prop where
  | new (retention : Duration) (directory : String) : Reachable (.new retention directory)
  | step {s t : Desk} {e : Event} (h : Reachable s) (ha : s.act e = some t) : Reachable t

variable {s t : Desk} {e : Event} {n : Nat} {h : Handle}

theorem Reachable.of_run {es : List Event} (hs : Reachable s) (hr : s.run es = some t) :
    Reachable t := by
  induction es generalizing s with
  | nil =>
    cases hr
    exact hs
  | cons e es ih =>
    obtain ⟨s₁, ha, hr⟩ := Option.bind_eq_some_iff.mp hr
    exact ih (hs.step ha) hr

/-! ## The invariant -/

/-- The accounts are right, and whoever looks at a closed channel has seen the backend go. -/
structure Balanced (s : Desk) : Prop where
  keyed : s.collector.Keyed
  accounts : Accounts s.collector s.waiters
  since : ∀ h ∈ s.handles, h.since ≤ s.losses
  closed : ∀ h ∈ s.handles, s.collector.isClosed h.waiter.subscription = true →
    h.since < s.losses
  waiting : ∀ h ∈ s.handles, ∀ w, h.wait? = some w → w.waiter = h.waiter

theorem balanced_new (retention : Duration) (directory : String) :
    (new retention directory).Balanced where
  keyed := List.nodup_nil
  accounts := Collector.accounts_nil _ rfl rfl
  since := by simp [new]
  closed := by simp [new]
  waiting := by simp [new]

theorem mem_waiters (hh : h ∈ s.handles) : h.waiter ∈ s.waiters := List.mem_map_of_mem hh

/-- A new waiter looks at an open channel, and opens and closes none of the others. -/
theorem Balanced.registers (hb : s.Balanced) {c : Collector} {w : Waiter} {uri : String}
    {version : Int} {opened : Bool}
    (hr : s.collector.register s.now uri version opened = (c, w)) :
    Balanced { s with collector := c, handles := s.handles ++ [⟨w, s.losses, none⟩] } where
  keyed := by
    have hkeyed := hb.keyed.register s.now uri version opened
    rwa [hr] at hkeyed
  accounts := by
    have hperm : (w :: s.waiters).Perm (s.waiters ++ [w]) :=
      (List.perm_append_singleton _ _).symm
    have haccounts := (Collector.accounts_register hb.accounts hr).perm hperm
    simpa [waiters] using haccounts
  since h hh := by
    rcases List.mem_append.mp hh with hh | hh
    · exact hb.since h hh
    · cases List.mem_singleton.mp hh
      exact Nat.le_refl _
  closed h hh hc := by
    rcases List.mem_append.mp hh with hh | hh
    · rw [Collector.isClosed_register_of_mem hb.accounts hr (mem_waiters hh)] at hc
      exact hb.closed h hh hc
    · rw [List.mem_singleton.mp hh] at hc
      have hopen := Collector.isClosed_of_register hb.accounts hr
      rw [hc] at hopen
      cases hopen
  waiting h hh w hw := by
    rcases List.mem_append.mp hh with hh | hh
    · exact hb.waiting h hh w hw
    · rw [List.mem_singleton.mp hh] at hw
      cases hw

/-- Nothing is out of balance as long as only snapshots change. -/
theorem Balanced.hears (hb : s.Balanced) {c : Collector}
    (hs : c.subscriptions = s.collector.subscriptions) (ha : Accounts c s.waiters)
    (hc : ∀ id, c.isClosed id = s.collector.isClosed id) :
    Balanced { s with collector := c } where
  keyed := hb.keyed.congr hs
  accounts := ha
  since := hb.since
  closed h hh hclosed := hb.closed h hh (by rwa [hc] at hclosed)
  waiting := hb.waiting

theorem Balanced.disconnects (hb : s.Balanced) :
    Balanced { s with collector := s.collector.disconnect, losses := s.losses + 1 } where
  keyed := List.nodup_nil
  accounts := Collector.accounts_disconnect hb.accounts
  since h hh := Nat.le_succ_of_le (hb.since h hh)
  closed h hh _ := Nat.lt_succ_of_le (hb.since h hh)
  waiting := hb.waiting

/-- The waiters that are held, the one with a place in front. -/
theorem perm_eraseIdx (hn : s.handles[n]? = some h) :
    s.waiters.Perm (h.waiter :: (s.handles.eraseIdx n).map (·.waiter)) := by
  obtain ⟨hlt, rfl⟩ := List.getElem?_eq_some_iff.mp hn
  exact ((List.getElem_cons_eraseIdx_perm hlt).map (·.waiter)).symm

theorem Balanced.drops (hb : s.Balanced) (hn : s.handles[n]? = some h) :
    Balanced { s with
      collector := s.collector.release h.waiter, handles := s.handles.eraseIdx n } := by
  have haccounts := hb.accounts.perm (perm_eraseIdx hn)
  have hmem : ∀ x ∈ s.handles.eraseIdx n, x ∈ s.handles := fun x hx => List.mem_of_mem_eraseIdx hx
  refine ⟨hb.keyed.release h.waiter, Collector.accounts_release haccounts,
    fun x hx => hb.since x (hmem x hx), fun x hx hc => ?_,
    fun x hx => hb.waiting x (hmem x hx)⟩
  rw [Collector.isClosed_release_of_mem haccounts (List.mem_map_of_mem hx)] at hc
  exact hb.closed x (hmem x hx) hc

/-- Whoever waits is the holder of the waiter that was there before. -/
theorem exists_of_mem_setWait (hn : s.handles[n]? = some h) {wait? : Option Wait} {x : Handle}
    (hx : x ∈ (s.setWait n h wait?).handles) :
    ∃ y ∈ s.handles, y.waiter = x.waiter ∧ y.since = x.since := by
  rcases List.mem_or_eq_of_mem_set hx with hx | rfl
  · exact ⟨x, hx, rfl, rfl⟩
  · exact ⟨h, List.mem_of_getElem? hn, rfl, rfl⟩

/-- Holders do not change anything by waiting. -/
theorem Balanced.waits (hb : s.Balanced) (hn : s.handles[n]? = some h) {wait? : Option Wait}
    (hw : ∀ w, wait? = some w → w.waiter = h.waiter) : (s.setWait n h wait?).Balanced := by
  have hsame : (s.setWait n h wait?).waiters = s.waiters := by
    obtain ⟨hlt, rfl⟩ := List.getElem?_eq_some_iff.mp hn
    refine List.ext_getElem (by simp [waiters, setWait]) fun k hk hk' => ?_
    simp only [waiters, setWait, List.getElem_map, List.getElem_set]
    split_ifs with heq
    · subst heq
      rfl
    · rfl
  refine ⟨hb.keyed, by rw [hsame]; exact hb.accounts, fun x hx => ?_, fun x hx hc => ?_,
    fun x hx w hxw => ?_⟩
  · obtain ⟨y, hy, -, hsince⟩ := exists_of_mem_setWait hn hx
    rw [← hsince]
    exact hb.since y hy
  · obtain ⟨y, hy, hwaiter, hsince⟩ := exists_of_mem_setWait hn hx
    rw [← hsince]
    exact hb.closed y hy (by rw [hwaiter]; exact hc)
  · rcases List.mem_or_eq_of_mem_set hx with hx | rfl
    · exact hb.waiting x hx w hxw
    · exact hw w hxw

/-- **Balance.** Every event keeps the accounts right. -/
theorem balanced_of_act (hb : s.Balanced) (ha : s.act e = some t) : t.Balanced := by
  cases e with
  | elapse d =>
    cases ha
    exact ⟨hb.keyed, hb.accounts, hb.since, hb.closed, hb.waiting⟩
  | register uri version opened =>
    cases ha
    exact hb.registers rfl
  | publish p =>
    cases ha
    exact hb.hears (Collector.subscriptions_publish ..) (Collector.accounts_publish hb.accounts ..)
      fun id => Collector.isClosed_publish ..
  | reject uri version reason =>
    cases ha
    exact hb.hears (Collector.subscriptions_reject ..) (Collector.accounts_reject hb.accounts ..)
      fun id => Collector.isClosed_reject ..
  | disconnect =>
    cases ha
    exact hb.disconnects
  | drop n =>
    obtain ⟨h, hn, rfl⟩ := Option.map_eq_some_iff.mp ha
    exact hb.drops hn
  | wait n timeout settle =>
    obtain ⟨h, hn, ha⟩ := Option.bind_eq_some_iff.mp ha
    split at ha <;> cases ha
    refine hb.waits hn fun w hw => ?_
    cases hw
    rfl
  | look n =>
    obtain ⟨h, hn, ha⟩ := Option.bind_eq_some_iff.mp ha
    obtain ⟨w, hw, ha⟩ := Option.bind_eq_some_iff.mp ha
    have hwaiter := hb.waiting h (List.mem_of_getElem? hn) w hw
    split at ha <;> rename_i hstep <;> cases ha
    · refine hb.waits hn fun w' hw' => ?_
      cases hw'
      rw [Wait.waiter_of_next hstep, hwaiter]
    · exact (Wait.step_ne_later hstep).elim
    · exact hb.waits hn fun w' hw' => by cases hw'
  | turnAway n =>
    obtain ⟨h, hn, rfl⟩ := Option.map_eq_some_iff.mp ha
    exact hb.waits hn fun w hw => by cases hw

theorem balanced_of_reachable (hs : Reachable s) : s.Balanced := by
  induction hs with
  | new retention directory => exact balanced_new retention directory
  | step _ ha ih => exact balanced_of_act ih ha

/-! ## Who has seen the backend go -/

/-- Whoever was handed out a waiter before the backend went looks at a closed channel. -/
def Severed (s : Desk) : Prop :=
  ∀ h ∈ s.handles, h.since < s.losses → s.collector.isClosed h.waiter.subscription = true

/-- A new waiter was handed out after all that. -/
theorem Severed.registers (hv : s.Severed) (hb : s.Balanced) {c : Collector} {w : Waiter}
    {uri : String} {version : Int} {opened : Bool}
    (hr : s.collector.register s.now uri version opened = (c, w)) :
    Severed { s with collector := c, handles := s.handles ++ [⟨w, s.losses, none⟩] } := by
  intro x hx hlt
  rcases List.mem_append.mp hx with hx | hx
  · have hsame := Collector.isClosed_register_of_mem hb.accounts hr (mem_waiters hx)
    exact hsame.trans (hv x hx hlt)
  · rw [List.mem_singleton.mp hx] at hlt
    exact absurd hlt (Nat.lt_irrefl _)

theorem Severed.waits (hv : s.Severed) (hn : s.handles[n]? = some h) (wait? : Option Wait) :
    (s.setWait n h wait?).Severed := by
  intro x hx hlt
  obtain ⟨y, hy, hwaiter, hsince⟩ := exists_of_mem_setWait hn hx
  rw [← hsince] at hlt
  rw [← hwaiter]
  exact hv y hy hlt

theorem severed_of_act (hb : s.Balanced) (hv : s.Severed) (ha : s.act e = some t) :
    t.Severed := by
  cases e with
  | elapse d =>
    cases ha
    exact hv
  | register uri version opened =>
    cases ha
    exact hv.registers hb rfl
  | publish p =>
    cases ha
    intro x hx hlt
    exact (Collector.isClosed_publish ..).trans (hv x hx hlt)
  | reject uri version reason =>
    cases ha
    intro x hx hlt
    exact (Collector.isClosed_reject ..).trans (hv x hx hlt)
  | disconnect =>
    cases ha
    intro x hx hlt
    exact Collector.isClosed_disconnect_of_accounts hb.accounts _
  | drop n =>
    obtain ⟨h, hn, rfl⟩ := Option.map_eq_some_iff.mp ha
    intro x hx hlt
    have haccounts := hb.accounts.perm (perm_eraseIdx hn)
    have hsame := Collector.isClosed_release_of_mem haccounts (List.mem_map_of_mem hx)
    exact hsame.trans (hv x (List.mem_of_mem_eraseIdx hx) hlt)
  | wait n timeout settle =>
    obtain ⟨h, hn, ha⟩ := Option.bind_eq_some_iff.mp ha
    split at ha <;> cases ha
    exact hv.waits hn _
  | look n =>
    obtain ⟨h, hn, ha⟩ := Option.bind_eq_some_iff.mp ha
    obtain ⟨w, -, ha⟩ := Option.bind_eq_some_iff.mp ha
    split at ha <;> cases ha <;> exact hv.waits hn _
  | turnAway n =>
    obtain ⟨h, hn, rfl⟩ := Option.map_eq_some_iff.mp ha
    exact hv.waits hn none

theorem severed_of_reachable (hs : Reachable s) : s.Severed := by
  induction hs with
  | new retention directory =>
    intro x hx
    cases hx
  | step hs ha ih => exact severed_of_act (balanced_of_reachable hs) ih ha

/-! ## Who waits for a document -/

/-- Somebody waits for a document through the subscription that it has. -/
def Awaits (s : Desk) (uri : String) (h : Handle) : Prop :=
  ∃ sub, s.collector.subscriptions.lookup uri = some sub ∧ sub.id = h.waiter.subscription

/-- Whoever was handed out a waiter since the backend came has a subscription. -/
theorem Balanced.awaits_of_since (hb : s.Balanced) (hh : h ∈ s.handles)
    (hsince : h.since = s.losses) : s.Awaits h.waiter.uri h := by
  have hopen : s.collector.isClosed h.waiter.subscription = false := by
    by_contra hclosed
    have hlt := hb.closed h hh (by simpa using hclosed)
    omega
  obtain ⟨u, sub, hs, hid⟩ := hb.accounts.subscribed _ hopen
  obtain rfl := hb.accounts.owner _ (mem_waiters hh) u sub hs hid
  exact ⟨sub, hs, hid⟩

/-- Nobody else has. -/
theorem awaits_iff_of_reachable (hs : Reachable s) (hh : h ∈ s.handles) {uri : String} :
    s.Awaits uri h ↔ h.waiter.uri = uri ∧ h.since = s.losses := by
  have hb := balanced_of_reachable hs
  constructor
  · rintro ⟨sub, hsub, hid⟩
    refine ⟨(hb.accounts.owner _ (mem_waiters hh) uri sub hsub hid).symm, ?_⟩
    by_contra hne
    have hlt : h.since < s.losses := Nat.lt_of_le_of_ne (hb.since h hh) hne
    have hclosed := severed_of_reachable hs h hh hlt
    rw [← hid, hb.accounts.isOpen uri sub hsub] at hclosed
    cases hclosed
  · rintro ⟨rfl, hsince⟩
    exact hb.awaits_of_since hh hsince

/-! ## What it means -/

/-- Whoever has no subscription looks at a closed channel. -/
theorem Balanced.isClosed_of_missing (hb : s.Balanced) (hh : h ∈ s.handles)
    (hm : ∀ sub, (h.waiter.uri, sub) ∈ s.collector.subscriptions → sub.id ≠ h.waiter.subscription) :
    s.collector.isClosed h.waiter.subscription = true := by
  by_contra hopen
  obtain ⟨u, sub, hs, hid⟩ := hb.accounts.subscribed _ (Bool.eq_false_iff.mpr hopen)
  obtain rfl := hb.accounts.owner _ (mem_waiters hh) u sub hs hid
  exact hm sub (Assoc.mem_of_lookup hs) hid

theorem Balanced.nodup_ids (hb : s.Balanced) :
    (s.collector.subscriptions.map (·.2.id)).Nodup := by
  refine List.Nodup.map_on (fun e he f hf hid => ?_) (List.Nodup.of_map _ hb.keyed)
  have hlook := (Collector.mem_subscriptions_iff hb.keyed).mp he
  have hlook' := (Collector.mem_subscriptions_iff hb.keyed).mp hf
  have huri : e.1 = f.1 := hb.accounts.distinct _ _ _ _ hlook hlook' hid
  rw [huri, hlook'] at hlook
  exact Prod.ext huri (Option.some.inj hlook).symm

/-- **The accounts of a collector.** Whatever was registered, published, rejected or given back, in
whatever order, and however often the backend has gone: no document has two subscriptions and no two
subscriptions share an id; a subscription has at least one waiter, and as many as it counts; giving
one back leaves all subscriptions with another id, and what is seen through their channels; a waiter
without a subscription was handed out before the backend has gone, and only such a one is told that
there is no connection. -/
theorem accounted_of_reachable (hs : Reachable s) :
    (s.collector.subscriptions.map (·.1)).Nodup ∧
    (s.collector.subscriptions.map (·.2.id)).Nodup ∧
    (∀ uri sub, (uri, sub) ∈ s.collector.subscriptions →
      1 ≤ sub.waiters ∧ sub.waiters = waitersOf s.waiters uri sub.id) ∧
    (∀ n t h, s.handles[n]? = some h → s.act (.drop n) = some t →
      (∀ uri sub, sub.id ≠ h.waiter.subscription →
        ((uri, sub) ∈ t.collector.subscriptions ↔ (uri, sub) ∈ s.collector.subscriptions)) ∧
      ∀ x : Waiter, x.subscription ≠ h.waiter.subscription →
        t.collector.channelOf x = s.collector.channelOf x) ∧
    (∀ h ∈ s.handles, (∀ sub, (h.waiter.uri, sub) ∈ s.collector.subscriptions →
      sub.id ≠ h.waiter.subscription) → h.since < s.losses) ∧
    (∀ h ∈ s.handles, ∀ w c, h.wait? = some w →
      w.step s.now s.collector = .done c (.error .notConnected) → h.since < s.losses) := by
  have hb := balanced_of_reachable hs
  refine ⟨hb.keyed, hb.nodup_ids, fun uri sub hmem => ?_, fun n t h hn ha => ?_,
    fun h hh hm => hb.closed h hh (hb.isClosed_of_missing hh hm), fun h hh w c hw hstep => ?_⟩
  · obtain ⟨hcount, hpos⟩ :=
      hb.accounts.counted uri sub ((Collector.mem_subscriptions_iff hb.keyed).mp hmem)
    exact ⟨hpos, hcount⟩
  · have hb' := balanced_of_act hb ha
    rw [act, hn] at ha
    cases ha
    refine ⟨fun uri sub hid => ?_, fun x hx => Collector.channelOf_release_of_ne hx⟩
    rw [Collector.mem_subscriptions_iff hb'.keyed, Collector.mem_subscriptions_iff hb.keyed]
    exact Collector.lookup_release_iff hid
  · have hclosed := Wait.isClosed_of_notConnected hstep
    rw [hb.waiting h hh w hw] at hclosed
    exact hb.closed h hh hclosed

/-- Two waiters for one document, the end of the backend, and a third waiter for the document; then
the first one is given back, and a wait on the second one begins. -/
def reopening : List Event :=
  [.register "file:///a.py" 1 true, .register "file:///a.py" 2 false, .disconnect,
    .register "file:///a.py" 1 true, .drop 0, .wait 0 (.ofMillis 100) .zero, .look 0]

def reopened : Desk := ((new (.ofMillis 500) "/").run reopening).getD (new .zero "/")

theorem reachable_reopened : Reachable reopened := by
  have hrun : (new (.ofMillis 500) "/").run reopening = some reopened := by rfl
  exact (Reachable.new _ _).of_run hrun

/-- The new subscription counts one waiter, and the old waiter, which is not counted, is told that
there is no connection. -/
theorem accounted_of_reachable_reopened :
    ("file:///a.py", ⟨1, 1, 1⟩) ∈ reopened.collector.subscriptions ∧
      waitersOf reopened.waiters "file:///a.py" 1 = 1 ∧
      ∃ h ∈ reopened.handles, ∃ w c, h.wait? = some w ∧
        w.step reopened.now reopened.collector = .done c (.error .notConnected) ∧
          h.since < reopened.losses := by
  obtain ⟨-, -, hcounted, -, -, htold⟩ := accounted_of_reachable reachable_reopened
  have hmem : ("file:///a.py", ⟨1, 1, 1⟩) ∈ reopened.collector.subscriptions :=
    List.mem_singleton.mpr rfl
  have hcut : reopened.handles[0]? = some ⟨⟨"file:///a.py", 2, 0⟩, 0,
      some ⟨⟨"file:///a.py", 2, 0⟩, .ofMillis 100, .zero, .snapshot 100⟩⟩ := by rfl
  have hstep : Wait.step reopened.now reopened.collector
      ⟨⟨"file:///a.py", 2, 0⟩, .ofMillis 100, .zero, .snapshot 100⟩ =
        .done reopened.collector (.error .notConnected) := by rfl
  have hh := List.mem_of_getElem? hcut
  exact ⟨hmem, (hcounted _ _ hmem).2.symm, _, hh, _, _, rfl, hstep, htold _ hh _ _ rfl hstep⟩

end Desk

end DiagnosticBroker
