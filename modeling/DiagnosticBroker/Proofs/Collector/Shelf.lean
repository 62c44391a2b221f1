import DiagnosticBroker.Proofs.Collector.Desk
import DiagnosticBroker.Proofs.Collector.Room
import Mathlib.Data.List.Induction

/-!
# Publishes that nobody waits for

A `Shelf` is a collector and the time. A `Shelf.Event` is one operation of the collector, or time
that passes, and any list of events is a run.

`Shelf.Tidy` is the invariant of what is kept: there are at most 200 entries, no two for one
document, and none for a document that somebody waits for. `Shelf.Leaves` lists the reasons why an
entry goes. Only one of them is a matter of room: a publish about another document than all that
are kept comes when there is no room, and the entry was received before all others.

Results:
* `tidy_act`, `tidy_run`: every event keeps the invariant.
* `stays_or_comes`, `leaves_of_act`: where an entry comes from, and why it goes.
* `kept_of_run`: what is kept after any run, why it is, and what a registration makes of it.
-/

namespace DiagnosticBroker

open Collector (Fixes maxUnclaimed)

/-! ## Shelves -/

/-- A collector and the time. -/
structure Shelf where
  now : Time := 0
  collector : Collector

/-- One operation of a collector, or time that passes. -/
inductive Shelf.Event where
  | elapse (duration : Nat)
  | register (uri : String) (version : Int) (opened : Bool)
  | release (waiter : Waiter)
  | publish (publish : Wire.Publish)
  | reject (uri : String) (version : Option Int) (reason : String)
  | disconnect
  /-- Entries are counted. -/
  | count

namespace Shelf

/-- A collector that nobody has used. -/
def new (retention : Duration) (directory : String) : Shelf where
  collector := { retention := retention, directory := directory }

/-- What an event does. -/
def act (s : Shelf) : Event → Shelf
  | .elapse d => { s with now := s.now + d }
  | .register uri version opened =>
    { s with collector := (s.collector.register s.now uri version opened).1 }
  | .release w => { s with collector := s.collector.release w }
  | .publish p => { s with collector := s.collector.publish s.now p }
  | .reject uri version reason =>
    { s with collector := (s.collector.reject uri version reason).1 }
  | .disconnect => { s with collector := s.collector.disconnect }
  | .count => { s with collector := (s.collector.unclaimedCount s.now).1 }

/-- One event after the other. -/
def run (s : Shelf) (es : List Event) : Shelf := es.foldl act s

variable {s s₀ : Shelf} {e : Event} {es : List Event} {x : String × Unclaimed} {uri : String}
  {u : Unclaimed}

theorem run_concat (s : Shelf) (es : List Event) (e : Event) :
    s.run (es ++ [e]) = (s.run es).act e :=
  List.foldl_concat act s e es

theorem fixes_act (s : Shelf) (e : Event) : Fixes s.collector (s.act e).collector := by
  cases e with
  | elapse => exact ⟨rfl, rfl⟩
  | register => exact Collector.fixes_register ..
  | release => exact Collector.fixes_release ..
  | publish => exact Collector.fixes_publish ..
  | reject => exact Collector.fixes_reject ..
  | disconnect => exact Collector.fixes_disconnect _
  | count => exact ⟨rfl, rfl⟩

theorem fixes_run (s : Shelf) (es : List Event) : Fixes s.collector (s.run es).collector := by
  induction es using List.reverseRecOn with
  | nil => exact ⟨rfl, rfl⟩
  | append_singleton es e ih =>
    rw [run_concat]
    have hlast := fixes_act (s.run es) e
    exact ⟨hlast.retention.trans ih.retention, hlast.directory.trans ih.directory⟩

/-! ## The invariant -/

/-- There are not too many entries, no two for one document, and none for a document that somebody
waits for. -/
structure Tidy (s : Shelf) : Prop where
  few : s.collector.unclaimed.length ≤ maxUnclaimed
  shelved : s.collector.Shelved
  apart : ∀ x ∈ s.collector.unclaimed, s.collector.subscriptions.lookup x.1 = none
  grounded : s.collector.Grounded

theorem tidy_new (retention : Duration) (directory : String) : (new retention directory).Tidy where
  few := Nat.zero_le _
  shelved := List.nodup_nil
  apart _ hx := nomatch hx
  grounded := Collector.grounded_new retention directory

/-- Entries may go, and so may subscriptions. -/
theorem Tidy.thins (h : s.Tidy) {c : Collector} (now : Time)
    (hu : c.unclaimed.Sublist s.collector.unclaimed)
    (hl : ∀ x ∈ c.unclaimed, s.collector.subscriptions.lookup x.1 = none →
      c.subscriptions.lookup x.1 = none) (hg : c.Grounded) : Tidy ⟨now, c⟩ where
  few := Nat.le_trans hu.length_le h.few
  shelved := h.shelved.of_sublist hu
  apart x hx := hl x hx (h.apart x (hu.subset hx))
  grounded := hg

theorem Tidy.publish (h : s.Tidy) (p : Wire.Publish) : (s.act (.publish p)).Tidy := by
  have hground : (s.collector.publish s.now p).Grounded :=
    (Collector.tracks_publish h.grounded s.now p).grounded
  have hsubs := Collector.subscriptions_publish s.collector s.now p
  rcases Collector.publish_cases s.collector s.now p with ⟨sub, -, hkept⟩ | ⟨hnone, heq⟩
  · have hsame : (s.collector.publish s.now p).unclaimed = s.collector.unclaimed := by
      rcases hkept with ⟨-, heq⟩ | ⟨-, heq⟩ <;> rw [heq]
      rfl
    exact h.thins s.now (by rw [hsame]) (fun x _ hx => by rwa [hsubs]) hground
  · have hroom := Collector.sublist_withRoom s.collector s.now (s.collector.subject p)
    have hentries : (s.collector.publish s.now p).unclaimed =
        (s.collector.withRoom s.now (s.collector.subject p)).unclaimed ++
          [(s.collector.subject p, ⟨p.version, p.diagnostics, s.now⟩)] := by rw [heq]
    refine ⟨?_, ?_, fun x hx => ?_, hground⟩
    · rw [act, hentries, List.length_append]
      exact Collector.length_withRoom_lt h.few s.now _
    · rw [act, Collector.Shelved, hentries, List.map_append, List.nodup_append]
      refine ⟨h.shelved.of_sublist hroom, List.nodup_singleton _, fun u hu v hv => ?_⟩
      obtain ⟨x, hx, rfl⟩ := List.mem_map.mp hu
      rw [List.mem_singleton.mp hv]
      exact (Collector.mem_withRoom hx).2
    · rw [act, hentries] at hx
      rw [act, hsubs]
      rcases List.mem_append.mp hx with hx | hx
      · exact h.apart x (hroom.subset hx)
      · rw [List.mem_singleton.mp hx]
        exact hnone

theorem tidy_act (h : s.Tidy) (e : Event) : (s.act e).Tidy := by
  cases e with
  | elapse => exact ⟨h.few, h.shelved, h.apart, h.grounded⟩
  | register uri version opened =>
    cases hr : s.collector.register s.now uri version opened with | mk c' w
    have hentries := Collector.unclaimed_of_register hr
    have hground : c'.Grounded := (Collector.tracks_register h.grounded hr).1.grounded
    rw [act, hr]
    refine h.thins s.now ?_ (fun x hx hnone => ?_) hground
    · rw [hentries]
      exact (Collector.sublist_forget _ _).trans (Collector.sublist_prune _ _)
    · rw [hentries] at hx
      rwa [Collector.lookup_of_register hr (Collector.mem_remaining.mp hx).2]
  | release w =>
    refine h.thins s.now (by rw [Collector.unclaimed_release]) (fun x _ hnone => ?_)
      (Collector.tracks_release h.grounded w).grounded
    cases hl : (s.collector.release w).subscriptions.lookup x.1 with
    | none => rfl
    | some sub =>
      obtain ⟨old, hold, -⟩ := Collector.subscription_of_release hl
      rw [hnone] at hold
      cases hold
  | publish p => exact h.publish p
  | reject uri version reason =>
    refine h.thins s.now ?_ (fun x _ hnone => ?_) (Collector.tracks_reject h.grounded ..).grounded
    · rw [Collector.unclaimed_reject]
      exact Collector.sublist_forget _ _
    · rwa [Collector.subscriptions_reject]
  | disconnect =>
    exact h.thins s.now (List.nil_sublist _) (fun _ _ _ => rfl)
      (Collector.tracks_disconnect s.collector).grounded
  | count =>
    exact h.thins s.now (Collector.sublist_prune _ _) (fun _ _ hnone => hnone) h.grounded

theorem tidy_run (h : s.Tidy) (es : List Event) : (s.run es).Tidy := by
  induction es using List.reverseRecOn with
  | nil => exact h
  | append_singleton es e ih =>
    rw [run_concat]
    exact tidy_act ih e

/-! ## Where entries come from -/

/-- An event after which an earlier publish for a document does not count: there is a newer one, the
document is registered, what is published for it cannot be read, or the backend is gone. -/
def Event.Concerns (directory uri : String) : Event → Prop
  | .register u _ _ => u = uri
  | .publish p => Uri.normalize directory p.uri = uri
  | .reject u _ _ => Uri.normalize directory u = uri
  | .disconnect => True
  | _ => False

/-- An entry is the last publish for its document in a run, and nothing came after it that made it
void. -/
def LastPublish (s₀ : Shelf) (es : List Event) (uri : String) (u : Unclaimed) : Prop :=
  ∃ before p after, es = before ++ .publish p :: after ∧
    Uri.normalize s₀.collector.directory p.uri = uri ∧
    u = ⟨p.version, p.diagnostics, (s₀.run before).now⟩ ∧
    ∀ e ∈ after, ¬ e.Concerns s₀.collector.directory uri

theorem LastPublish.concat (h : LastPublish s₀ es uri u)
    (he : ¬ e.Concerns s₀.collector.directory uri) : LastPublish s₀ (es ++ [e]) uri u := by
  obtain ⟨before, p, after, rfl, hp, hu, hafter⟩ := h
  refine ⟨before, p, after ++ [e], by simp, hp, hu, fun e' he' => ?_⟩
  rcases List.mem_append.mp he' with he' | he'
  · exact hafter e' he'
  · rwa [List.mem_singleton.mp he']

/-- An entry was there before and is none of what the event is about, or it is the publish. -/
theorem stays_or_comes (h : s.Tidy) (hx : x ∈ (s.act e).collector.unclaimed) :
    x ∈ s.collector.unclaimed ∧ ¬ e.Concerns s.collector.directory x.1 ∨
      ∃ p, e = .publish p ∧ Uri.normalize s.collector.directory p.uri = x.1 ∧
        x.2 = ⟨p.version, p.diagnostics, s.now⟩ := by
  cases e with
  | elapse => exact .inl ⟨hx, id⟩
  | register uri version opened =>
    rw [act, Collector.unclaimed_register] at hx
    obtain ⟨⟨hmem, -⟩, hne⟩ := Collector.mem_remaining.mp hx
    exact .inl ⟨hmem, fun heq => hne heq.symm⟩
  | release w =>
    rw [act, Collector.unclaimed_release] at hx
    exact .inl ⟨hx, id⟩
  | publish p =>
    rcases Collector.publish_cases s.collector s.now p with ⟨sub, hsub, hkept⟩ | ⟨-, heq⟩
    · have hmem : x ∈ s.collector.unclaimed := by
        rcases hkept with ⟨-, heq⟩ | ⟨-, heq⟩ <;> (rw [act, heq] at hx; exact hx)
      refine .inl ⟨hmem, fun hp => ?_⟩
      have hnone := h.apart x hmem
      rw [← hp] at hnone
      exact absurd (hsub.symm.trans hnone) nofun
    · rw [act, heq] at hx
      rcases List.mem_append.mp hx with hx | hx
      · obtain ⟨hmem, hne⟩ := Collector.mem_withRoom hx
        exact .inl ⟨hmem, fun heq => hne heq.symm⟩
      · cases List.mem_singleton.mp hx
        exact .inr ⟨p, rfl, rfl, rfl⟩
  | reject uri version reason =>
    rw [act, Collector.unclaimed_reject] at hx
    obtain ⟨hmem, hne⟩ := Collector.mem_forget.mp hx
    exact .inl ⟨hmem, fun heq => hne heq.symm⟩
  | disconnect => cases hx
  | count => exact .inl ⟨(Collector.mem_prune.mp hx).1, id⟩

theorem lastPublish_of_run (h : s₀.Tidy) (hempty : s₀.collector.unclaimed = []) (es : List Event)
    (hx : x ∈ (s₀.run es).collector.unclaimed) : LastPublish s₀ es x.1 x.2 := by
  induction es using List.reverseRecOn generalizing x with
  | nil =>
    rw [run, List.foldl_nil, hempty] at hx
    cases hx
  -- The last event of the run decides: either it left the entry as it was, or it is its publish.
  | append_singleton es e ih =>
    have hdirectory := (fixes_run s₀ es).directory
    rw [run_concat] at hx
    rcases stays_or_comes (tidy_run h es) hx with ⟨hmem, hnot⟩ | ⟨p, rfl, hp, hu⟩
    · rw [hdirectory] at hnot
      exact (ih hmem).concat hnot
    · rw [hdirectory] at hp
      exact ⟨es, p, [], rfl, hp, hu, nofun⟩

/-! ## Why entries go -/

/-- The reasons why an entry is gone after an event. -/
inductive Leaves (s : Shelf) (x : String × Unclaimed) : Event → Prop
  /-- It was kept for as long as entries are kept. -/
  | expired {e : Event} (old : ¬ s.collector.IsYoung s.now x.2) : Leaves s x e
  /-- The event is about its document. -/
  | concerned {e : Event} (about : e.Concerns s.collector.directory x.1) : Leaves s x e
  /-- A publish for a document that nobody waits for needs room, and there is none, although all
  entries that are too old were left out. The entry was received before all others, which stay. -/
  | evicted {p : Wire.Publish}
    (unawaited : s.collector.isAwaited (Uri.normalize s.collector.directory p.uri) = false)
    (full : s.collector.IsFullFor s.now (Uri.normalize s.collector.directory p.uri))
    (young : x ∈ (s.collector.prune s.now).unclaimed)
    (oldest : ∀ y ∈ (s.collector.prune s.now).unclaimed, x.2.received ≤ y.2.received)
    (others : ∀ y ∈ (s.collector.prune s.now).unclaimed, y ≠ x →
      y ∈ (s.act (.publish p)).collector.unclaimed) :
    Leaves s x (.publish p)

theorem leaves_of_act (h : s.Tidy) (hx : x ∈ s.collector.unclaimed)
    (hgone : x ∉ (s.act e).collector.unclaimed) : Leaves s x e := by
  cases e with
  | elapse => exact absurd hx hgone
  | register uri version opened =>
    rw [act, Collector.unclaimed_register, Collector.mem_remaining] at hgone
    by_cases huri : x.1 = uri
    · exact .concerned huri.symm
    · exact .expired fun hyoung => hgone ⟨⟨hx, hyoung⟩, huri⟩
  | release w =>
    rw [act, Collector.unclaimed_release] at hgone
    exact absurd hx hgone
  | publish p =>
    rcases Collector.publish_cases s.collector s.now p with ⟨sub, -, hkept⟩ | ⟨hnone, heq⟩
    · refine absurd hx fun hmem => hgone ?_
      rcases hkept with ⟨-, heq⟩ | ⟨-, heq⟩ <;> (rw [act, heq]; exact hmem)
    · have hstays : ∀ y ∈ (s.collector.withRoom s.now (s.collector.subject p)).unclaimed,
          y ∈ (s.act (.publish p)).collector.unclaimed := by
        intro y hy
        rw [act, heq]
        exact List.mem_append_left _ hy
      rcases Collector.leaves_withRoom h.shelved hx (mt (hstays x) hgone)
        with hold | huri | ⟨hfull, hyoung, holdest, hothers⟩
      · exact .expired hold
      · exact .concerned huri.symm
      · exact .evicted (Option.isSome_eq_false_iff.mpr (Option.isNone_iff_eq_none.mpr hnone)) hfull
          hyoung holdest fun y hy hne => hstays y (hothers y hy hne)
  | reject uri version reason =>
    rw [act, Collector.unclaimed_reject, Collector.mem_forget] at hgone
    exact .concerned (by_contra fun hne => hgone ⟨hx, fun heq => hne heq.symm⟩)
  | disconnect => exact .concerned trivial
  | count =>
    exact .expired fun hyoung => hgone (Collector.mem_prune.mpr ⟨hx, hyoung⟩)

/-- **What is kept.** After any run there are at most 200 entries, no two for one document, and none
for a document that somebody waits for. Each is the last publish for its document, and since then
the document was not registered, nothing unreadable was published for it, and the backend did not
go. An entry that no such event is about and that is not too old only goes when a publish for
another document comes and there is no room, and then it was received before all others. A new
waiter sees an entry only if that is young, and for a version that is the registered one or a later
one. -/
theorem kept_of_run (retention : Duration) (directory : String) (es : List Event) :
    let start := new retention directory
    let s := start.run es
    s.collector.unclaimed.length ≤ 200 ∧
      (s.collector.unclaimed.map (·.1)).Nodup ∧
      (∀ x ∈ s.collector.unclaimed, s.collector.isAwaited x.1 = false) ∧
      (∀ x ∈ s.collector.unclaimed, LastPublish start es x.1 x.2) ∧
      (∀ e, ∀ x ∈ s.collector.unclaimed, x ∉ (s.act e).collector.unclaimed → Leaves s x e) ∧
      ∀ uri version opened c w, s.collector.register s.now uri version opened = (c, w) →
        (c.channelOf w).snapshot = .pending ∨
          ∃ u v, (uri, u) ∈ s.collector.unclaimed ∧
            Duration.ofMillis (s.now - u.received) < retention ∧
            u.version = some v ∧ version ≤ v ∧
            (c.channelOf w).snapshot = .published u.diagnostics := by
  intro start s
  have htidy : s.Tidy := tidy_run (tidy_new retention directory) es
  refine ⟨htidy.few, htidy.shelved, fun x hx => ?_, fun x hx => ?_, fun e x => leaves_of_act htidy,
    fun uri version opened c w hr => ?_⟩
  · rw [Collector.isAwaited, htidy.apart x hx, Option.isSome_none]
  · exact lastPublish_of_run (tidy_new retention directory) rfl es hx
  · have hsees := Collector.snapshot_register htidy.grounded s.now uri version opened
    rw [hr] at hsees
    rw [hsees]
    rcases Collector.seedFor_cases s.collector s.now uri version
      with hp | ⟨u, v, hmem, hyoung, hv, hle, hp⟩
    · exact .inl hp
    · rw [Collector.IsYoung, (fixes_run start es).retention] at hyoung
      exact .inr ⟨u, v, hmem, hyoung, hv, hle, hp⟩

/-- A publish is kept, and 29 seconds later a registration starts from it. -/
theorem keeps_for_a_waiter :
    let published : Event := .publish ⟨"file:///a.py", some 1, []⟩
    let s := (new (.ofSeconds 30) "/").run [published, .elapse 29000]
    let registered := s.collector.register s.now "file:///a.py" 1 false
    s.collector.unclaimed = [("file:///a.py", ⟨some 1, [], 0⟩)] ∧
      LastPublish (new (.ofSeconds 30) "/") [published, .elapse 29000] "file:///a.py"
        ⟨some 1, [], 0⟩ ∧
      Leaves s ("file:///a.py", ⟨some 1, [], 0⟩) (.register "file:///a.py" 1 false) ∧
      (registered.1.channelOf registered.2).snapshot = .published [] := by
  intro published s registered
  have hnormal : Uri.normalize "/" "file:///a.py" = "file:///a.py" := by decide +kernel
  have hentries : s.collector.unclaimed = [("file:///a.py", ⟨some 1, [], 0⟩)] := by
    have hfirst : s.collector.unclaimed =
        [(Uri.normalize "/" "file:///a.py", ⟨some 1, [], 0⟩)] := rfl
    rw [hfirst, hnormal]
  obtain ⟨-, -, -, hlast, hleaves, hsees⟩ :=
    kept_of_run (.ofSeconds 30) "/" [published, .elapse 29000]
  have hmem : ("file:///a.py", ⟨some 1, [], 0⟩) ∈ s.collector.unclaimed := by
    rw [hentries]
    exact List.mem_singleton.mpr rfl
  have hgone : ("file:///a.py", ⟨some 1, [], 0⟩) ∉
      (s.act (.register "file:///a.py" 1 false)).collector.unclaimed := by
    rw [act, Collector.unclaimed_register, Collector.mem_remaining]
    exact fun hmem => hmem.2 rfl
  have hready : (registered.1.channelOf registered.2).snapshot.isPending = false := by
    decide +kernel
  refine ⟨hentries, hlast _ hmem, hleaves _ _ hmem hgone, ?_⟩
  rcases hsees "file:///a.py" 1 false registered.1 registered.2 rfl
    with hpending | ⟨u, v, hkept, -, -, -, hpublished⟩
  · rw [hpending] at hready
    cases hready
  · rw [hentries] at hkept
    cases List.mem_singleton.mp hkept
    exact hpublished

end Shelf

end DiagnosticBroker
