import DiagnosticBroker.Proofs.Instance.Traffic

/-!
# What a failed opening leaves behind

Opening a document registers a waiter before the frame is queued, and gives the waiter back if that
fails. The documents and the counts of the waiters are then as before. But others may wait for the
same document: the version that counts for them has moved on, their snapshot is replaced, and the
publish that was kept for the document is gone. `Residue` says all that is left of such a
registration, and `Alike` that nothing is.

Results:
* `residue_of_register`: what is left of a registration whose waiter is given back.
* `Residue.alike_iff`: when nothing is left of it.
* `residue_of_refused`: what is left of an opening that fails.
-/

namespace DiagnosticBroker

namespace Collector

variable {c c' : Collector} {live : List Waiter} {now : Time} {uri : String} {version : Int}
  {opened : Bool} {w : Waiter}

/-! ## Registering in vain -/

/-- The version that counts for a subscription after a registration. -/
def versionAfter (s : Subscription) (version : Int) (opened : Bool) : Int :=
  if opened then version else max s.version version

/-- What is left of a registration when its waiter is given back. -/
structure Residue (c : Collector) (now : Time) (uri : String) (version : Int) (opened : Bool)
    (c' : Collector) : Prop where
  retention : c'.retention = c.retention
  /-- Whoever is subscribed, stays so with the same waiters. -/
  lookup : ∀ u, c'.subscriptions.lookup u =
    if u = uri then
      (c.subscriptions.lookup uri).map fun s => { s with version := versionAfter s version opened }
    else c.subscriptions.lookup u
  /-- Who waits for the document finds another snapshot. -/
  snapshot : ∀ w, w.subscription < c.channels.length → (c'.channelOf w).snapshot =
    if ∃ s, c.subscriptions.lookup uri = some s ∧ s.id = w.subscription then
      c.seedFor now uri version
    else (c.channelOf w).snapshot
  closed : ∀ w, w.subscription < c.channels.length →
    (c'.channelOf w).closed = (c.channelOf w).closed
  unclaimed : c'.unclaimed = c.remaining now uri

@[simp]
theorem retention_register (c : Collector) (now : Time) (uri : String) (version : Int)
    (opened : Bool) : (c.register now uri version opened).1.retention = c.retention := by
  unfold register
  simp only
  split <;> rfl

@[simp]
theorem retention_release (c : Collector) (w : Waiter) : (c.release w).retention = c.retention := by
  unfold release
  split
  · rfl
  · split_ifs <;> rfl

/-- Whoever joins others leaves them their count. -/
theorem Joins.residue (h : Accounts c live) {s : Subscription}
    (hj : Joins c now uri version opened s c' w) (hr : c'.retention = c.retention) :
    Residue c now uri version opened (c'.release w) := by
  have hpos := (h.counted uri s hj.found).2
  have hself := hj.lookup uri
  rw [if_pos rfl] at hself
  have hw : w.uri = uri ∧ w.subscription = s.id := by
    rw [hj.waiter]
    exact ⟨rfl, rfl⟩
  obtain ⟨hch, hl⟩ : (c'.release w).channels = c'.channels ∧
      ∀ u, (c'.release w).subscriptions.lookup u =
        if u = uri then some { s with version := versionAfter s version opened }
        else c'.subscriptions.lookup u := by
    rcases release_cases c' w with ⟨-, hother⟩ | ⟨s', hs', -, ⟨hlast, -⟩ | ⟨-, hch, -, hl⟩⟩
    · rw [hw.1, hw.2] at hother
      exact (hother _ hself rfl).elim
    · rw [hw.1, hself] at hs'
      cases hs'
      exact absurd hlast (by simp only; omega)
    · rw [hw.1, hself] at hs'
      cases hs'
      refine ⟨hch, fun u => ?_⟩
      rw [hl, hw.1]
      rfl
  have hfound : ∀ w' : Waiter, (∃ s', c.subscriptions.lookup uri = some s' ∧
      s'.id = w'.subscription) ↔ w'.subscription = s.id := by
    intro w'
    rw [hj.found]
    exact ⟨fun ⟨s', hs', hid⟩ => by cases hs'; exact hid.symm, fun hid => ⟨s, rfl, hid.symm⟩⟩
  refine ⟨(retention_release c' w).trans hr, fun u => ?_, fun w' _ => ?_, fun w' _ => ?_, ?_⟩
  · rw [hl, hj.lookup, hj.found]
    by_cases hu : u = uri
    · rw [if_pos hu, if_pos hu]
      rfl
    · rw [if_neg hu, if_neg hu, if_neg hu]
  · rw [channelOf_congr hch, hj.channelOf (h.lt hj.found)]
    simp only [hfound]
    split <;> rfl
  · rw [channelOf_congr hch, hj.channelOf (h.lt hj.found)]
    split <;> rfl
  · rw [unclaimed_release, hj.unclaimed]

/-- Whoever is alone takes the subscription away again. -/
theorem Founds.residue (hf : Founds c now uri version c' w) (hr : c'.retention = c.retention) :
    Residue c now uri version opened (c'.release w) := by
  have hself := hf.lookup uri
  rw [if_pos rfl] at hself
  have hw : w.uri = uri ∧ w.subscription = c.channels.length := by
    rw [hf.waiter]
    exact ⟨rfl, rfl⟩
  obtain ⟨hch, hl⟩ : (c'.release w).channels = (c'.close c.channels.length).channels ∧
      ∀ u, (c'.release w).subscriptions.lookup u =
        if u = uri then none else c'.subscriptions.lookup u := by
    rcases release_cases c' w with ⟨-, hother⟩ | ⟨s', hs', -, ⟨-, hch, -, hl⟩ | ⟨hmore, -⟩⟩
    · rw [hw.1, hw.2] at hother
      exact (hother _ hself rfl).elim
    · rw [hw.1, hself] at hs'
      cases hs'
      exact ⟨hch, fun u => by rw [hl, hw.1]⟩
    · rw [hw.1, hself] at hs'
      cases hs'
      exact absurd hmore (Nat.lt_irrefl 1)
  have hkept : ∀ w' : Waiter, w'.subscription < c.channels.length →
      (c'.release w).channelOf w' = c.channelOf w' := by
    intro w' hlt
    rw [channelOf_congr hch, channelOf_close, if_neg (Nat.ne_of_lt hlt), hf.channelOf_of_lt hlt]
  refine ⟨(retention_release c' w).trans hr, fun u => ?_, fun w' hlt => ?_, fun w' hlt => ?_, ?_⟩
  · rw [hl, hf.lookup, hf.missing]
    by_cases hu : u = uri
    · rw [if_pos hu, if_pos hu]
      rfl
    · rw [if_neg hu, if_neg hu, if_neg hu]
  · rw [hkept w' hlt, hf.missing]
    simp
  · rw [hkept w' hlt]
  · rw [unclaimed_release, hf.unclaimed]

/-- **Residue.** What is left of a registration whose waiter is given back at once. -/
theorem residue_of_register (h : Accounts c live) (now : Time) (uri : String) (version : Int)
    (opened : Bool) :
    Residue c now uri version opened
      ((c.register now uri version opened).1.release (c.register now uri version opened).2) := by
  have hr := retention_register c now uri version opened
  obtain ⟨s, hj⟩ | hf := joins_or_founds (Eq.refl (c.register now uri version opened))
  · exact hj.residue h hr
  · exact hf.residue hr

/-! ## Nothing left -/

/-- Nobody can tell the one collector from the other: the same subscriptions have the same versions,
waiters and snapshots, and the same publishes are kept that are not too old. -/
structure Alike (now : Time) (c c' : Collector) : Prop where
  lookup : ∀ u, c'.subscriptions.lookup u = c.subscriptions.lookup u
  snapshot : ∀ w, w.subscription < c.channels.length →
    (c'.channelOf w).snapshot = (c.channelOf w).snapshot
  unclaimed : ∀ u, (c'.prune now).unclaimed.lookup u = (c.prune now).unclaimed.lookup u

/-- The publishes that are left are those of other documents. -/
theorem Residue.lookup_unclaimed (h : Residue c now uri version opened c') (u : String) :
    (c'.prune now).unclaimed.lookup u =
      if u = uri then none else (c.prune now).unclaimed.lookup u := by
  have hpruned : (c'.prune now).unclaimed = (c.prune now).unclaimed.filter fun e => e.1 ≠ uri := by
    simp only [prune, h.unclaimed, h.retention, remaining, forget, List.filter_filter]
    refine List.filter_congr fun e _ => ?_
    rw [Bool.and_comm, Bool.and_assoc, Bool.and_self]
  rw [hpruned]
  by_cases hu : u = uri
  · rw [if_pos hu, hu]
    exact Assoc.lookup_filter_self uri _
  · rw [if_neg hu]
    exact Assoc.lookup_filter_of_ne hu _

/-- **No trace.** Nothing is left of the registration if no publish was kept for the document, and
those who wait for it are at that version already and have seen no snapshot. -/
theorem Residue.alike_iff (h : Residue c now uri version opened c') (hg : c.Grounded) :
    Alike now c c' ↔ (c.prune now).unclaimed.lookup uri = none ∧
      ∀ s, c.subscriptions.lookup uri = some s →
        s.version = versionAfter s version opened ∧
          ∀ w : Waiter, w.subscription = s.id → (c.channelOf w).snapshot = .pending := by
  have hseed : (c.prune now).unclaimed.lookup uri = none → c.seedFor now uri version = .pending :=
    fun hnone => by rw [seedFor, hnone]; rfl
  constructor
  · intro ha
    have hnone : (c.prune now).unclaimed.lookup uri = none := by
      rw [← ha.unclaimed, h.lookup_unclaimed, if_pos rfl]
    refine ⟨hnone, fun s hs => ⟨?_, fun w hw => ?_⟩⟩
    · have hlookup := h.lookup uri
      rw [ha.lookup, if_pos rfl, hs, Option.map_some, Option.some.injEq] at hlookup
      exact congrArg (·.version) hlookup
    · have hlt : w.subscription < c.channels.length := hw ▸ hg hs
      rw [← ha.snapshot w hlt, h.snapshot w hlt, if_pos ⟨s, hs, hw.symm⟩, hseed hnone]
  · rintro ⟨hnone, hall⟩
    refine ⟨fun u => ?_, fun w hlt => ?_, fun u => ?_⟩
    · rw [h.lookup]
      split_ifs with hu
      · rw [hu]
        cases hs : c.subscriptions.lookup uri with
        | none => rfl
        | some s => rw [Option.map_some, ← (hall s hs).1]
      · rfl
    · rw [h.snapshot w hlt]
      split_ifs with hex
      · obtain ⟨s, hs, hid⟩ := hex
        rw [hseed hnone, (hall s hs).2 w hid.symm]
      · rfl
    · rw [h.lookup_unclaimed]
      split_ifs with hu
      · rw [hu, hnone]
      · rfl

end Collector

/-! ## Opening in vain -/

namespace Scene

open Instance (Shutdown)

variable {P : Scene → Event → Prop} {s : Scene}

/-- **Failed openings.** An opening fails if frames cannot be queued. It leaves the documents and
what was announced to the backend, and of the collector all but what `Residue` says: those who wait
for the same document stay subscribed and counted, but at the version that was to be announced, and
with the snapshot that it would start from. So it leaves no trace just if no publish is kept for the
document, and those who wait for it, if any, are at that version already and have seen none. -/
theorem residue_of_refused (h : Reachable P s) {uri languageId text : String} {i : Instance}
    {f : Fault} (ho : s.client.openDocument s.now uri languageId text = (i, .error f)) :
    s.client.canSend = false ∧ i.documents = s.client.documents ∧
    (∀ u, i.announcements u = s.client.announcements u) ∧
    s.client.collector.Residue s.now uri (s.client.nextVersion uri)
      (s.client.documents.lookup uri).isNone i.collector ∧
    (s.client.collector.Alike s.now i.collector ↔
      (s.client.collector.prune s.now).unclaimed.lookup uri = none ∧
      ∀ sub, s.client.collector.subscriptions.lookup uri = some sub →
        sub.version = Collector.versionAfter sub (s.client.nextVersion uri)
          (s.client.documents.lookup uri).isNone ∧
        ∀ w : Waiter, w.subscription = sub.id →
          (s.client.collector.channelOf w).snapshot = .pending) := by
  have hrefuses := Instance.refuses_of_openDocument ho
  have haccounts := (kept_of_reachable h).accounts
  have hresidue : s.client.collector.Residue s.now uri (s.client.nextVersion uri)
      (s.client.documents.lookup uri).isNone i.collector := by
    rw [hrefuses.collector]
    exact Collector.residue_of_register haccounts s.now uri _ _
  exact ⟨hrefuses.cannotSend, hrefuses.documents, hrefuses.announcements, hresidue,
    hresidue.alike_iff haccounts.grounded⟩

/-! ### A document that is shared -/

/-- What a backend finds in a document. -/
def blemish : Wire.Diagnostic := ⟨⟨⟨0, 0⟩, ⟨0, 1⟩⟩, none, none, none, "unused import"⟩

/-- The backend says so. -/
def reporting : Event :=
  .receive (.notification (.new Wire.Publish.method
    (some (Wire.Publish.encode ⟨"a", some 1, [blemish]⟩))))

/-- A document is opened, the backend says what it finds, and a shutdown closes the input. -/
def hangingUp : List Event :=
  readying ++ [.opens "a" "python" "x", reporting, .stop, .shutdown 0 fun _ => true,
    .shutdown 0 fun _ => true, .receive (.response (.success (.number 2) .null)), .read,
    .shutdown 0 fun _ => true]

def hungUp : Scene := (sample.run hangingUp).getD sample

/-- The waiter of whoever opened the document first. -/
def waiterOfA : Waiter := ⟨"a", 1, 0⟩

/-- Somebody opens the document again, in vain, and whoever opened it first does not find any more
what the backend has said. -/
theorem residue_of_refused_hungUp :
    sample.run hangingUp = some hungUp ∧
    (hungUp.client.collector.channelOf waiterOfA).snapshot = .published [blemish] ∧
    ∃ i, hungUp.client.openDocument hungUp.now "a" "python" "y" = (i, .error .notConnected) ∧
      (i.collector.channelOf waiterOfA).snapshot = .pending ∧
      ¬ hungUp.client.collector.Alike hungUp.now i.collector := by
  have hr : sample.run hangingUp = some hungUp := by rfl
  have hreach : Reachable (fun _ _ => True) hungUp :=
    Reachable.of_run (s := sample) (.new _ _ _ _ _ _ _) (fun _ _ _ => trivial) hr
  have hbefore : (hungUp.client.collector.channelOf waiterOfA).snapshot = .published [blemish] := by
    rfl
  obtain ⟨i, ho⟩ : ∃ i, hungUp.client.openDocument hungUp.now "a" "python" "y" =
      (i, .error .notConnected) := ⟨_, rfl⟩
  obtain ⟨-, -, -, hresidue, halike⟩ := residue_of_refused hreach ho
  have hsub : hungUp.client.collector.subscriptions.lookup "a" = some ⟨0, 1, 1⟩ := by rfl
  refine ⟨hr, hbefore, i, ho, ?_, fun ha => ?_⟩
  · rw [hresidue.snapshot waiterOfA (by decide), if_pos ⟨_, hsub, rfl⟩]
    rfl
  · have hpending := ((halike.mp ha).2 _ hsub).2 waiterOfA rfl
    rw [hbefore] at hpending
    cases hpending

end Scene

end DiagnosticBroker
