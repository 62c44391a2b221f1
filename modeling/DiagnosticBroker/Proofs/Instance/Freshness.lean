import DiagnosticBroker.Proofs.Collector.Waits
import DiagnosticBroker.Proofs.Instance.DocumentProtocol
import DiagnosticBroker.Proofs.Instance.Waiters

/-!
# Fresh diagnostics

A backend labels its diagnostics with the version of the text that they are about, and may publish
them late. A publish is taken for stale if its label is smaller than the version that is registered
for the document. As versions start over when a document is opened anew, the label does not tell one
round from another: diagnostics of a text from an earlier round pass for fresh if their label is not
smaller than the last version of the round that goes on now.

The texts of a document are numbered by their announcements. `Sourced` says where everything comes
from that the collector holds about a document: the registered version is that of the last text, and
a snapshot is about a text that is not older than its waiter, or about one from before the document
was opened anew.

Results:
* `sourced_of_reachable`: where snapshots come from, in every run without a shutdown.
* `fresh_or_restarted`: what a wait that succeeds has found, and which publishes reach a waiter.
-/

namespace DiagnosticBroker.Scene

open Announcement (versionAfter Carries IsLast Restarts isLast_append isLast_of_versionAfter
  restarts_of_le)
open Collector (Accounts)

variable {reports : Nat → List Wire.Diagnostic → Prop} {s s' : Scene} {e : Event} {uri : String}
  {as : List Announcement} {c c' : Collector} {hs : List Holder}

/-- What a backend does that labels its publishes of a document: their label is the version of a
text that it was sent, and `reports` tells which diagnostics come from which text. Nobody begins to
stop the backend. -/
def Labelled (uri : String) (reports : Nat → List Wire.Diagnostic → Prop) (s : Scene) (e : Event) :
    Prop :=
  e.isStop = false ∧
    ∀ p, e.publish? = some p → s.client.collector.subject p = uri →
      ∃ k v, p.version = some v ∧ Carries (s.client.announcements uri) k v ∧
        reports k p.diagnostics

/-- The diagnostics come from a text, and if this is older than the one at `position`, then the
document was opened anew since. -/
def FreshOrRestarted (reports : Nat → List Wire.Diagnostic → Prop) (as : List Announcement)
    (position : Nat) (ds : List Wire.Diagnostic) : Prop :=
  ∃ k v, reports k ds ∧ Carries as k v ∧ (k < position → Restarts as k position v)

theorem FreshOrRestarted.append {position : Nat} {ds : List Wire.Diagnostic}
    (h : FreshOrRestarted reports as position ds) (bs : List Announcement) :
    FreshOrRestarted reports (as ++ bs) position ds := by
  obtain ⟨k, v, hr, hk, hfresh⟩ := h
  exact ⟨k, v, hr, hk.append bs, fun hlt => (hfresh hlt).append bs⟩

/-- Where everything comes from that the collector holds about a document. -/
structure Sourced (uri : String) (reports : Nat → List Wire.Diagnostic → Prop)
    (as : List Announcement) (c : Collector) (hs : List Holder) : Prop where
  registered : ∀ sub, c.subscriptions.lookup uri = some sub → ∃ k, IsLast as k sub.version
  announced : ∀ h ∈ hs, h.waiter.uri = uri → ∃ v, Carries as h.position v
  seen : ∀ h ∈ hs, h.isLive = true → h.waiter.uri = uri →
    ∀ ds, (c.channelOf h.waiter).snapshot = .published ds →
      FreshOrRestarted reports as h.position ds
  kept : ∀ u ∈ c.unclaimed, u.1 = uri →
    ∃ k v, u.2.version = some v ∧ Carries as k v ∧ reports k u.2.diagnostics

/-- Subscriptions, snapshots and kept publishes may go. -/
theorem Sourced.congr (h : Sourced uri reports as c hs)
    (hsub : ∀ sub', c'.subscriptions.lookup uri = some sub' →
      ∃ sub, c.subscriptions.lookup uri = some sub ∧ sub'.version = sub.version)
    (hsnap : ∀ x ∈ hs, x.isLive = true → x.waiter.uri = uri → ∀ ds,
      (c'.channelOf x.waiter).snapshot = .published ds →
        (c.channelOf x.waiter).snapshot = .published ds)
    (hu : ∀ u ∈ c'.unclaimed, u ∈ c.unclaimed) : Sourced uri reports as c' hs where
  registered sub' hs' := by
    obtain ⟨sub, hs, hv⟩ := hsub sub' hs'
    rw [hv]
    exact h.registered sub hs
  announced := h.announced
  seen x hx hlive hxu ds hds := h.seen x hx hlive hxu ds (hsnap x hx hlive hxu ds hds)
  kept u hmem := h.kept u (hu u hmem)

/-- Closing a document brings no text. -/
theorem Sourced.append_closed (h : Sourced uri reports as c hs) :
    Sourced uri reports (as ++ [.closed]) c hs where
  registered sub hs := (h.registered sub hs).imp fun _ hk => hk.append_closed
  announced x hx hxu := (h.announced x hx hxu).imp fun _ hk => hk.append _
  seen x hx hlive hxu ds hds := (h.seen x hx hlive hxu ds hds).append _
  kept u hmem huu := by
    obtain ⟨k, v, hv, hk, hr⟩ := h.kept u hmem huu
    exact ⟨k, v, hv, hk.append _, hr⟩

/-- Whoever does something else with a waiter, or gives it back, is the same holder. -/
theorem Sourced.of_holders {hs' : List Holder} (h : Sourced uri reports as c hs)
    (hh : ∀ y ∈ hs', ∃ x ∈ hs, x.Continues y) : Sourced uri reports as c hs' where
  registered := h.registered
  announced y hy hyu := by
    obtain ⟨x, hx, hxy⟩ := hh y hy
    rw [hxy.waiter] at hyu
    rw [hxy.position]
    exact h.announced x hx hyu
  seen y hy hlive hyu ds hds := by
    obtain ⟨x, hx, hxy⟩ := hh y hy
    rw [hxy.waiter] at hyu hds
    rw [hxy.position]
    exact h.seen x hx (hxy.isLive hlive) hyu ds hds
  kept := h.kept

/-- The last text is not older than the one that somebody waits for. -/
theorem Sourced.position_le {k : Nat} {v : Int} {x : Holder} (h : Sourced uri reports as c hs)
    (hk : IsLast as k v) (hx : x ∈ hs) (hxu : x.waiter.uri = uri) : x.position ≤ k := by
  obtain ⟨w, hw⟩ := h.announced x hx hxu
  exact hk.le _ w hw

/-! ## Openings -/

/-- A waiter for another document has no part in a registration. -/
theorem channelOf_register_of_ne {u : String} {version : Int} {opened : Bool} {now : Time}
    {w : Waiter} {x : Holder} (ha : Accounts c (liveWaiters hs))
    (hr : c.register now u version opened = (c', w)) (hx : x ∈ hs) (hlive : x.isLive = true)
    (hxu : x.waiter.uri ≠ u) : c'.channelOf x.waiter = c.channelOf x.waiter := by
  have hmem := mem_liveWaiters hx hlive
  rcases Collector.joins_or_founds hr with ⟨sub, hj⟩ | hf
  · rw [hj.channelOf (ha.lt hj.found), if_neg]
    intro heq
    exact hxu (ha.owner _ hmem u sub hj.found heq.symm).symm
  · exact hf.channelOf_of_lt (ha.inRange _ hmem)

theorem Sourced.opensOther {u : String} {version : Int} {opened isLate : Bool} {now : Time}
    {w : Waiter} {position : Nat} (h : Sourced uri reports as c hs)
    (ha : Accounts c (liveWaiters hs)) (hu : uri ≠ u)
    (hr : c.register now u version opened = (c', w)) :
    Sourced uri reports as c' (hs ++ [⟨w, position, isLate, .idle⟩]) := by
  have hw : w.uri = u := Collector.uri_of_register hr
  have hold : Sourced uri reports as c' hs := by
    refine h.congr (fun sub' hs' => ⟨sub', ?_, rfl⟩) (fun x hx hlive hxu ds hds => ?_)
      fun x hx => ?_
    · rw [← Collector.lookup_of_register hr hu]
      exact hs'
    · rw [← channelOf_register_of_ne ha hr hx hlive (by rw [hxu]; exact hu)]
      exact hds
    · rw [Collector.unclaimed_of_register hr] at hx
      exact Collector.mem_of_mem_remaining hx
  refine ⟨hold.registered, fun x hx hxu => ?_, fun x hx hlive hxu ds hds => ?_, hold.kept⟩
  · rcases List.mem_append.mp hx with hx | hx
    · exact hold.announced x hx hxu
    · rw [List.mem_singleton.mp hx] at hxu
      exact absurd (hxu.symm.trans hw) hu
  · rcases List.mem_append.mp hx with hx | hx
    · exact hold.seen x hx hlive hxu ds hds
    · rw [List.mem_singleton.mp hx] at hxu
      exact absurd (hxu.symm.trans hw) hu

/-- A publish that was kept comes from a text, and from an earlier round if it passes for fresh. -/
theorem Sourced.seeded {a : Announcement} {version : Int} {now : Time} {n position : Nat}
    {ds : List Wire.Diagnostic} (h : Sourced uri reports as c hs)
    (hn : versionAfter (as ++ [a]) = some n) (hv : a.version? = some version)
    (hp : position ≤ as.length) (hds : c.seedFor now uri version = .published ds) :
    FreshOrRestarted reports (as ++ [a]) position ds := by
  obtain ⟨u, v, hmem, huv, hle, rfl⟩ := Collector.mem_of_seedFor hds
  obtain ⟨k, v', hv', hk, hr⟩ := h.kept _ hmem rfl
  rw [huv, Option.some.injEq] at hv'
  subst hv'
  refine ⟨k, v, hr, hk.append _, fun hlt => ?_⟩
  exact restarts_of_le hn (hk.append _) (Announcement.carries_append_self as hv) hle hp hlt

/-- An opening registers the version of the text that it announces. -/
theorem Sourced.opens {a : Announcement} {version : Int} {opened isLate : Bool} {now : Time}
    {w : Waiter} {n : Nat} (h : Sourced uri reports as c hs) (ha : Accounts c (liveWaiters hs))
    (hn : versionAfter (as ++ [a]) = some n) (hv : a.version? = some version)
    (hchanged : opened = false → ∀ k v, IsLast as k v → v ≤ version)
    (hr : c.register now uri version opened = (c', w)) :
    Sourced uri reports (as ++ [a]) c' (hs ++ [⟨w, as.length, isLate, .idle⟩]) := by
  have hlast : IsLast (as ++ [a]) as.length version := isLast_append as hv
  have hpos : ∀ x ∈ hs, x.waiter.uri = uri → x.position ≤ as.length := by
    intro x hx hxu
    obtain ⟨v, hk⟩ := h.announced x hx hxu
    exact Nat.le_of_lt hk.lt
  have hversion : ∀ sub, c'.subscriptions.lookup uri = some sub → sub.version = version := by
    intro sub hs
    rcases Collector.joins_or_founds hr with ⟨sub₀, hj⟩ | hf
    · rw [hj.lookup, if_pos rfl, Option.some.injEq] at hs
      rw [← hs]
      cases opened with
      | true => rfl
      | false =>
        obtain ⟨k, hk⟩ := h.registered sub₀ hj.found
        have hle := hchanged rfl k _ hk
        change max sub₀.version version = version
        omega
    · rw [hf.lookup, if_pos rfl, Option.some.injEq] at hs
      rw [← hs]
  refine ⟨fun sub hs => ?_, fun x hx hxu => ?_, fun x hx hlive hxu ds hds => ?_,
    fun u hu huu => ?_⟩
  · rw [hversion sub hs]
    exact ⟨as.length, hlast⟩
  · rcases List.mem_append.mp hx with hx | hx
    · exact (h.announced x hx hxu).imp fun _ hk => hk.append _
    · rw [List.mem_singleton.mp hx]
      exact ⟨version, hlast.carries⟩
  · rcases List.mem_append.mp hx with hx | hx
    · rcases Collector.snapshot_register_of_mem ha hr (mem_liveWaiters hx hlive) with heq | heq
      · rw [heq] at hds
        exact (h.seen x hx hlive hxu ds hds).append _
      · rw [heq] at hds
        exact h.seeded hn hv (hpos x hx hxu) hds
    · rw [List.mem_singleton.mp hx] at hds ⊢
      rw [Collector.snapshot_of_register ha hr] at hds
      exact h.seeded hn hv (Nat.le_refl _) hds
  · rw [Collector.unclaimed_of_register hr] at hu
    obtain ⟨k, v, hv', hk, hr'⟩ := h.kept u (Collector.mem_of_mem_remaining hu) huu
    exact ⟨k, v, hv', hk.append _, hr'⟩

/-- An opening that fails leaves nothing behind. -/
theorem Sourced.refuses {i : Instance} {now : Time} {u : String}
    (h : Sourced uri reports as i.collector hs) (ha : Accounts i.collector (liveWaiters hs))
    (hnone : ∀ u, i.collector.subscriptions.lookup u = none) :
    Sourced uri reports as ((i.registration now u).1.release (i.registration now u).2) hs := by
  have hf := founds_registration hnone now u
  refine h.congr (fun sub' hs' => ?_) (fun x hx hlive _ ds hds => ?_) fun x hx => ?_
  · rw [lookup_release_registration hnone] at hs'
    cases hs'
  · rw [Collector.snapshot_release,
      hf.channelOf_of_lt (ha.inRange _ (mem_liveWaiters hx hlive))] at hds
    exact hds
  · rw [Collector.unclaimed_release, hf.unclaimed] at hx
    exact Collector.mem_of_mem_remaining hx

/-! ## Publishes -/

/-- A publish with a label that is not smaller than the last version comes from the last text, or
from a later one than anybody waits for, or from before the document was opened anew. -/
theorem Sourced.publishes {n : Nat} {now : Time} {p : Wire.Publish}
    (h : Sourced uri reports as c hs) (ha : Accounts c (liveWaiters hs))
    (hn : versionAfter as = some n)
    (hp : c.subject p = uri →
      ∃ k v, p.version = some v ∧ Carries as k v ∧ reports k p.diagnostics) :
    Sourced uri reports as (c.publish now p) hs := by
  rcases Collector.publish_cases c now p with ⟨sub, hs, ⟨-, heq⟩ | ⟨hstale, heq⟩⟩ | ⟨-, heq⟩
  · rw [heq]
    exact h
  · rw [heq]
    refine ⟨h.registered, h.announced, fun x hx hlive hxu ds hds => ?_, h.kept⟩
    rw [Collector.channelOf_send (ha.lt hs)] at hds
    by_cases hid : x.waiter.subscription = sub.id
    · have hsubject : c.subject p = uri :=
        (ha.owner _ (mem_liveWaiters hx hlive) _ sub hs hid.symm).trans hxu
      rw [if_pos hid] at hds
      cases hds
      obtain ⟨k, v, hv, hk, hr⟩ := hp hsubject
      rw [hsubject] at hs
      obtain ⟨j, hj⟩ := h.registered sub hs
      have hle : sub.version ≤ v := by
        rw [hv] at hstale
        simpa [Subscription.isStale] using hstale
      exact ⟨k, v, hr, hk, restarts_of_le hn hk hj.carries hle (h.position_le hj hx hxu)⟩
    · rw [if_neg hid] at hds
      exact h.seen x hx hlive hxu ds hds
  · have ht := Collector.thins_withRoom c now (c.subject p)
    rw [heq]
    refine ⟨fun sub hs => ?_, h.announced, fun x hx hlive hxu ds hds => ?_, fun u hu huu => ?_⟩
    · rw [ht.subscriptions] at hs
      exact h.registered sub hs
    · refine h.seen x hx hlive hxu ds ?_
      rw [← Collector.channelOf_congr ht.channels]
      exact hds
    · rcases List.mem_append.mp hu with hu | hu
      · exact h.kept u (ht.unclaimed u hu) huu
      · rw [List.mem_singleton.mp hu] at huu ⊢
        exact hp huu

/-- A publish that cannot be decoded is nobody's diagnostics. -/
theorem Sourced.rejects {u reason : String} {version : Option Int}
    (h : Sourced uri reports as c hs) (ha : Accounts c (liveWaiters hs)) :
    Sourced uri reports as (c.reject u version reason).1 hs := by
  obtain ⟨c₀, ht, heq | ⟨sub, hs, -, heq⟩⟩ := Collector.reject_cases c u version reason
  · rw [heq]
    refine h.congr (fun sub' hs' => ⟨sub', ?_, rfl⟩) (fun x _ _ _ ds hds => ?_) ht.unclaimed
    · rw [← ht.subscriptions]
      exact hs'
    · rw [← Collector.channelOf_congr ht.channels]
      exact hds
  · rw [heq]
    refine h.congr (fun sub' hs' => ⟨sub', ?_, rfl⟩) (fun x _ _ _ ds hds => ?_) ht.unclaimed
    · rw [← ht.subscriptions]
      exact hs'
    · have hlt : sub.id < c₀.channels.length := by
        rw [ht.channels]
        exact ha.lt hs
      rw [Collector.channelOf_send hlt] at hds
      by_cases hid : x.waiter.subscription = sub.id
      · rw [if_pos hid] at hds
        cases hds
      · rw [if_neg hid, Collector.channelOf_congr ht.channels] at hds
        exact hds

/-! ## Runs -/

/-- The end of all subscriptions leaves the snapshots. -/
theorem Sourced.disconnects (h : Sourced uri reports as c hs) :
    Sourced uri reports as c.disconnect hs := by
  refine h.congr (fun sub' hs' => ?_) (fun x _ _ _ ds hds => ?_) fun x hx => ?_
  · cases hs'
  · obtain ⟨b, hb⟩ := Collector.channelOf_disconnect c x.waiter
    rw [hb] at hds
    exact hds
  · cases hx

/-- Giving a waiter back leaves the snapshots, and the versions of subscriptions. -/
theorem Sourced.releases (h : Sourced uri reports as c hs) (w : Waiter) :
    Sourced uri reports as (c.release w) hs := by
  refine h.congr (fun sub' hs' => ?_) (fun x _ _ _ ds hds => ?_) fun x hx => ?_
  · exact Collector.subscription_of_release hs'
  · rw [← Collector.snapshot_release c w]
    exact hds
  · rw [← Collector.unclaimed_release c w]
    exact hx

/-- An opening announces the version after the last one, or starts over. -/
theorem sourced_opens {i j : Instance} {now : Time} {u : String} {version : Int} {waiter : Waiter}
    {n : Nat} {isLate : Bool} (ha : Accounts i.collector (liveWaiters hs)) (hl : i.Linked)
    (hf : Follows i uri n) (hb : uri = u → n < Word.maxI32)
    (h : Sourced uri reports (i.announcements uri) i.collector hs)
    (hi : i.Opens now u j version waiter) :
    Sourced uri reports (j.announcements uri) j.collector
      (hs ++ [⟨waiter, (i.announcements u).length, isLate, .idle⟩]) := by
  have hann := hi.announcements hl uri
  have hr := hi.registered
  by_cases hu : uri = u
  · subst hu
    have hn := (hf.opens hb hl hi).announced
    obtain ⟨hnext, hsome⟩ := hf.nextVersion (hb rfl) hi.sends
    rw [if_pos rfl] at hann hn
    rw [hann] at hn ⊢
    refine h.opens ha hn ?_ (fun hopen k v hv => ?_) hr
    · rw [Announcement.version?_next, hi.version_eq]
    · have hn0 : n ≠ 0 := by
        rw [← hsome, ← Option.not_isNone, hopen]
        rfl
      obtain ⟨k', hk'⟩ := isLast_of_versionAfter hf.announced hn0
      rw [hv.eq hk', hnext]
      omega
  · rw [if_neg hu, List.append_nil] at hann
    rw [hann]
    exact h.opensOther ha hu hr

/-- Every effect of an event keeps it known where everything comes from. -/
theorem sourced_step {n : Nat} (hk : s.Kept) (ho : s.Orderly) (hl : s.client.Linked)
    (hf : Follows s.client uri n) (hn : n ≤ openings uri s.calls)
    (hb : openings uri s'.calls ≤ Word.maxI32)
    (h : Sourced uri reports (s.client.announcements uri) s.client.collector s.holders)
    (hp : Labelled uri reports s e) (he : Effect s e s') :
    Sourced uri reports (s'.client.announcements uri) s'.client.collector s'.holders := by
  cases he with
  | fares hi _ hh =>
    rw [hi.announcements, hi.collector, hh]
    exact h
  | stops he =>
    rw [hp.1] at he
    cases he
  | loses hi hh =>
    rw [hi.announcements, hi.collector, hh]
    exact h.disconnects
  | publishes he _ hi hh =>
    rw [hi, hh]
    exact h.publishes hk.accounts hf.announced (hp.2 _ he)
  | rejects _ hi hh =>
    rw [hi, hh]
    exact h.rejects hk.accounts
  | opens hi hh hc =>
    rw [hh]
    exact sourced_opens hk.accounts hl hf (lt_of_opening hn hc hb) h hi
  | refuses hi hh =>
    rw [hi.announcements, hi.collector, hh]
    exact h.refuses hk.accounts (ho.silent hi.cannotSend)
  | @closes u told hi hh =>
    rw [hi.announcements hl, hi.collector, hh]
    by_cases hu : uri = u ∧ told = true
    · rw [if_pos hu]
      exact h.append_closed
    · rw [if_neg hu, List.append_nil]
      exact h
  | drops hn hlive hi hh =>
    rw [hi, hh]
    exact (h.of_holders fun _ hy => continues_of_mem_set hn hlive hy).releases _
  | moves hn hlive hp hi hh =>
    rw [hi, hh]
    exact h.of_holders fun _ hy => continues_of_mem_set hn hlive hy

theorem sourced_of_reachable (hs : Reachable (Labelled uri reports) s)
    (hb : openings uri s.calls ≤ Word.maxI32) :
    Sourced uri reports (s.client.announcements uri) s.client.collector s.holders := by
  refine hs.induct
    (I := fun s => openings uri s.calls ≤ Word.maxI32 →
      Sourced uri reports (s.client.announcements uri) s.client.collector s.holders)
    (fun _ _ _ _ _ _ _ _ => ?_) (fun s e s' hr ih hp he hb => ?_) hb
  · refine ⟨fun _ h => ?_, by simp [new], by simp [new], fun _ h => ?_⟩
    · cases h
    · cases h
  · have hbefore := openings_of_effect he hb
    obtain ⟨n, hn, hf⟩ := follows_of_reachable hr hbefore
    exact sourced_step (kept_of_reachable hr) (orderly_of_reachable (fun _ _ h => h.1) hr)
      (wired_of_reachable hr).linked hf hn hb (ih hbefore) hp he

/-! ## Freshness -/

/-- A publish reaches an open channel exactly if its label is not smaller than the last version. -/
theorem snapshot_publish {x : Holder} (hs : Reachable (Labelled uri reports) s)
    (hb : openings uri s.calls ≤ Word.maxI32) (hx : x ∈ s.holders) (hlive : x.isLive = true)
    (hxu : x.waiter.uri = uri)
    (hopen : s.client.collector.isClosed x.waiter.subscription = false) :
    ∃ k v, IsLast (s.client.announcements uri) k v ∧ x.position ≤ k ∧
      ∀ p label, s.client.collector.subject p = uri → p.version = some label →
        ((s.client.collector.publish s.now p).channelOf x.waiter).snapshot =
          if label < v then (s.client.collector.channelOf x.waiter).snapshot
          else .published p.diagnostics := by
  have ha := (kept_of_reachable hs).accounts
  have h := sourced_of_reachable hs hb
  obtain ⟨u, sub, hsub, hid⟩ := ha.subscribed _ hopen
  have hu : u = uri := (ha.owner _ (mem_liveWaiters hx hlive) u sub hsub hid).trans hxu
  subst hu
  obtain ⟨k, hk⟩ := h.registered sub hsub
  refine ⟨k, sub.version, hk, h.position_le hk hx hxu, fun p label hp hlabel => ?_⟩
  rcases Collector.publish_cases s.client.collector s.now p with
    ⟨sub', hs', hcases⟩ | ⟨hnone, -⟩
  · rw [hp, hsub, Option.some.injEq] at hs'
    subst hs'
    rw [hlabel] at hcases
    rcases hcases with ⟨hstale, heq⟩ | ⟨hstale, heq⟩
    · rw [heq, if_pos (by simpa [Subscription.isStale] using hstale)]
    · rw [heq, Collector.channelOf_send (ha.lt hsub), if_pos hid.symm,
        if_neg (by simpa [Subscription.isStale] using hstale)]
  · rw [hp, hsub] at hnone
    cases hnone

/-- **Freshness.** In a run in which a backend labels its publishes of a document and nobody stops
it, a wait that succeeds has found diagnostics of its own text or a later one, unless the document
was opened anew after the text that they are about, and then had a version not greater than that
text's. Nothing else is checked: a publish reaches everybody who waits exactly if its label is not
smaller than the last version, and one that was kept is handed to whoever opens the document next
exactly if its label is not smaller than the version of that opening. The openings are taken to be no
more than the versions that 32 bits hold. -/
theorem fresh_or_restarted (hs : Reachable (Labelled uri reports) s)
    (hb : openings uri s.calls ≤ Word.maxI32) :
    (∀ h ∈ s.holders, h.waiter.uri = uri → ∀ w, h.phase = .waiting w →
      ∀ c ds, w.step s.now s.client.collector = .done c (.ok ds) →
        ∃ k v, reports k ds ∧ Carries (s.client.announcements uri) k v ∧
          (k < h.position → Restarts (s.client.announcements uri) k h.position v)) ∧
    (∀ h ∈ s.holders, h.waiter.uri = uri → h.isLive = true →
      s.client.collector.isClosed h.waiter.subscription = false →
        ∃ k v, IsLast (s.client.announcements uri) k v ∧ h.position ≤ k ∧
          ∀ p label, s.client.collector.subject p = uri → p.version = some label →
            ((s.client.collector.publish s.now p).channelOf h.waiter).snapshot =
              if label < v then (s.client.collector.channelOf h.waiter).snapshot
              else .published p.diagnostics) ∧
    (∀ languageId text j version waiter u label,
      s.client.openDocument s.now uri languageId text = (j, .ok (version, waiter)) →
        (s.client.collector.prune s.now).unclaimed.lookup uri = some u → u.version = some label →
          (j.collector.channelOf waiter).snapshot =
            if version ≤ label then .published u.diagnostics else .pending) := by
  have hk := kept_of_reachable hs
  refine ⟨fun h hmem hu w hw c ds hd => ?_, fun h hmem hu hlive hopen => ?_,
    fun languageId text j version waiter u label ho hlookup hlabel => ?_⟩
  · have hwaiter : w.waiter = h.waiter := hk.waiting h hmem w hw
    have hlive : h.isLive = true := by rw [Holder.isLive, hw]
    have hsnap : (s.client.collector.channelOf w.waiter).snapshot = .published ds := by
      refine Wait.published_of_done (fun deadline quietUntil seen hquiet hrev => ?_) hd
      rw [hwaiter] at hrev ⊢
      exact (hk.settling h hmem w hw deadline quietUntil seen hquiet).2 hrev
    rw [hwaiter] at hsnap
    exact (sourced_of_reachable hs hb).seen h hmem hlive hu ds hsnap
  · exact snapshot_publish hs hb hmem hlive hu hopen
  · have hi := Instance.opens_of_openDocument ho
    rw [Collector.snapshot_of_register hk.accounts hi.registered, ← hi.version_eq,
      Collector.seedFor, hlookup]
    obtain ⟨label', ds, received⟩ := u
    subst hlabel
    rfl

/-- What a backend finds in the first text of a document. -/
def finding : Wire.Diagnostic := ⟨⟨⟨0, 0⟩, ⟨0, 1⟩⟩, none, none, none, "in the first text"⟩

def latePublish : Wire.Publish := ⟨"a", some 1, [finding]⟩

/-- The backend says so late. -/
def publishing : Event :=
  .receive (.notification (.new Wire.Publish.method (some latePublish.encode)))

/-- A document is opened and closed. -/
def closing : List Event := connecting ++ [.opens "a" "python" "x", .closes "a", .drop 0]

/-- It is opened anew, and somebody waits. -/
def reopening : List Event := [.opens "a" "python" "y", .wait 1 (.ofMillis 1) .zero, .look 1]

/-- What has become of the document before and after the publish, and in the end. -/
def afterClosing : Scene := (sample.run closing).getD sample

def afterPublishing : Scene := (afterClosing.act publishing).getD sample

def afterReopening : Scene := (afterPublishing.run reopening).getD sample

def waitingAnew : Wait := ⟨⟨"a", 1, 1⟩, .ofMillis 1, .zero, .snapshot 1⟩

/-- Whoever opens a document anew is handed what was found in a text that was closed before. -/
theorem fresh_or_restarted_late :
    waitingAnew.step afterReopening.now afterReopening.client.collector =
        .done afterReopening.client.collector (.ok [finding]) ∧
      ∃ h ∈ afterReopening.holders, h.phase = .waiting waitingAnew ∧ h.position = 2 ∧
        Restarts (afterReopening.client.announcements "a") 0 2 1 := by
  have hclosed : sample.run closing = some afterClosing := by rfl
  have hpublished : afterClosing.act publishing = some afterPublishing := by rfl
  have hreopened : afterPublishing.run reopening = some afterReopening := by rfl
  have hpublish : publishing.publish? = some latePublish := by rfl
  have hfirst : Carries (afterClosing.client.announcements "a") 0 1 := ⟨.opened 1, by rfl, rfl⟩
  -- All that the backend publishes is about the first text.
  have hlabelled : Labelled "a" (fun k _ => k = 0) afterClosing publishing := by
    refine ⟨rfl, fun p hp _ => ?_⟩
    rw [hpublish, Option.some.injEq] at hp
    subst hp
    exact ⟨0, 1, rfl, hfirst, rfl⟩
  have hreach : Reachable (Labelled "a" fun k _ => k = 0) afterReopening := by
    have hbefore : Reachable (Labelled "a" fun k _ => k = 0) afterClosing := by
      refine Reachable.of_run (.new _ _ _ _ _ _ _) (fun s => ?_) hclosed
      simp [closing, connecting, Labelled, Event.isStop, Event.publish?]
    refine Reachable.of_run (hbefore.step hlabelled hpublished) (fun s => ?_) hreopened
    simp [reopening, Labelled, Event.isStop, Event.publish?]
  have hopenings : openings "a" afterReopening.calls ≤ Word.maxI32 := by
    have hcount : openings "a" afterReopening.calls = 2 := by rfl
    rw [hcount]
    decide
  have hholder : afterReopening.holders[1]? =
      some ⟨⟨"a", 1, 1⟩, 2, false, .waiting waitingAnew⟩ := by rfl
  have hstep : waitingAnew.step afterReopening.now afterReopening.client.collector =
      .done afterReopening.client.collector (.ok [finding]) := by rfl
  have hmem := List.mem_of_getElem? hholder
  obtain ⟨k, v, rfl, hv, hrestarts⟩ :=
    (fresh_or_restarted hreach hopenings).1 _ hmem rfl _ rfl _ _ hstep
  have hv1 : v = 1 := hv.eq ⟨.opened 1, by rfl, rfl⟩
  subst hv1
  exact ⟨hstep, _, hmem, rfl, rfl, hrestarts (by decide)⟩

end DiagnosticBroker.Scene
