import DiagnosticBroker.Proofs.Collector.Channels
import DiagnosticBroker.Proofs.Collector.Waits

/-!
# What becomes of a channel

Whatever is done to a collector, the channel that a waiter looks at keeps its snapshot or gets a new
revision, and a wait that has seen a revision finds out. All that this takes is that subscriptions
have channels, which every operation keeps.

Results:
* `advances_register` and others: no snapshot is replaced without a new revision.
* `tracks_register` and others: every operation keeps the channels and what makes them work.
* `Wait.Heeds.tracks`: whoever waits for a quiet period has seen a snapshot, or sees that it was
  replaced.
-/

namespace DiagnosticBroker

namespace Collector

variable {c c' : Collector} {now : Time} {uri : String} {version : Int} {opened : Bool}
  {w w' : Waiter}

/-- Every subscription has a channel. -/
def Grounded (c : Collector) : Prop :=
  ∀ {uri s}, c.subscriptions.lookup uri = some s → s.id < c.channels.length

theorem grounded_new (retention : Duration) (directory : String) :
    Grounded { retention := retention, directory := directory } := fun h => by cases h

/-! ## Revisions -/

/-- What a waiter sees has not changed, or it has been replaced, which the revision shows. -/
def Advances (c c' : Collector) (w : Waiter) : Prop :=
  ((c'.channelOf w).revision = (c.channelOf w).revision ∧
    (c'.channelOf w).snapshot = (c.channelOf w).snapshot) ∨
  (c.channelOf w).revision < (c'.channelOf w).revision

theorem Advances.refl (c : Collector) (w : Waiter) : Advances c c w := .inl ⟨rfl, rfl⟩

theorem Advances.trans {c'' : Collector} (h : Advances c c' w) (h' : Advances c' c'' w) :
    Advances c c'' w := by
  rcases h with ⟨hr, hs⟩ | hlt
  · rcases h' with ⟨hr', hs'⟩ | hlt'
    · exact .inl ⟨hr'.trans hr, hs'.trans hs⟩
    · exact .inr (by rw [← hr]; exact hlt')
  · rcases h' with ⟨hr', -⟩ | hlt'
    · exact .inr (by rw [hr']; exact hlt)
    · exact .inr (Nat.lt_trans hlt hlt')

theorem Advances.of_channels (h : c'.channels = c.channels) (w : Waiter) : Advances c c' w := by
  unfold Advances
  rw [channelOf_congr h]
  exact .inl ⟨rfl, rfl⟩

theorem advances_send {id : Nat} (hid : id < c.channels.length) (x : Snapshot) (w : Waiter) :
    Advances c (c.send id x) w := by
  unfold Advances
  rw [channelOf_send hid]
  by_cases h : w.subscription = id
  · rw [if_pos h]
    exact .inr (Nat.lt_succ_self _)
  · rw [if_neg h]
    exact .inl ⟨rfl, rfl⟩

theorem advances_register (h : c.Grounded) (hr : c.register now uri version opened = (c', w))
    (hw' : w'.subscription < c.channels.length) : Advances c c' w' := by
  rcases joins_or_founds hr with ⟨s, hj⟩ | hf
  · have hsend := advances_send (h hj.found) (c.seedFor now uri version) w'
    unfold Advances at hsend ⊢
    rw [channelOf_congr hj.channels]
    exact hsend
  · unfold Advances
    rw [hf.channelOf_of_lt hw']
    exact .inl ⟨rfl, rfl⟩

theorem advances_release (c : Collector) (w x : Waiter) : Advances c (c.release w) x := by
  rcases release_cases c w with ⟨heq, -⟩ | ⟨s, -, -, ⟨-, hch, -, -⟩ | ⟨-, hch, -, -⟩⟩
  · rw [heq]
    exact .refl c x
  · unfold Advances
    rw [channelOf_congr hch, channelOf_close]
    split <;> exact .inl ⟨rfl, rfl⟩
  · exact .of_channels hch x

theorem advances_publish (h : c.Grounded) (now : Time) (p : Wire.Publish) (w : Waiter) :
    Advances c (c.publish now p) w := by
  rcases publish_cases c now p with ⟨s, hs, ⟨-, heq⟩ | ⟨-, heq⟩⟩ | ⟨-, heq⟩
  · rw [heq]
    exact .refl c w
  · rw [heq]
    exact advances_send (h hs) _ w
  · rw [heq]
    exact .of_channels (thins_withRoom c now (c.subject p)).channels w

theorem advances_reject (h : c.Grounded) (uri : String) (version : Option Int)
    (reason : String) (w : Waiter) : Advances c (c.reject uri version reason).1 w := by
  obtain ⟨c', ht, heq | ⟨s, hs, -, heq⟩⟩ := reject_cases c uri version reason
  · rw [heq]
    exact .of_channels ht.channels w
  · have hlt : s.id < c'.channels.length := by
      rw [ht.channels]
      exact h hs
    have hsend := advances_send hlt (.unreadable reason) w
    unfold Advances at hsend ⊢
    rw [heq, ← channelOf_congr ht.channels]
    exact hsend

theorem advances_disconnect (c : Collector) (w : Waiter) : Advances c c.disconnect w := by
  obtain ⟨b, hb⟩ := channelOf_disconnect c w
  unfold Advances
  rw [hb]
  exact .inl ⟨rfl, rfl⟩

/-! ## Operations -/

/-- What every operation makes of a collector whose subscriptions have channels: they still have,
no channel is gone, and no snapshot is replaced without a new revision. -/
structure Tracks (c c' : Collector) : Prop where
  grounded : c'.Grounded
  length : c.channels.length ≤ c'.channels.length
  advances : ∀ w : Waiter, w.subscription < c.channels.length → Advances c c' w

theorem Tracks.refl (h : c.Grounded) : Tracks c c := ⟨h, Nat.le_refl _, fun w _ => .refl c w⟩

theorem Tracks.trans {c'' : Collector} (h : Tracks c c') (h' : Tracks c' c'') : Tracks c c'' where
  grounded := h'.grounded
  length := Nat.le_trans h.length h'.length
  advances w hw := (h.advances w hw).trans (h'.advances w (Nat.lt_of_lt_of_le hw h.length))

/-- Subscriptions that have the channels that subscriptions had before, have channels. -/
theorem Grounded.of_lookup (h : c.Grounded)
    (hs : ∀ {u s'}, c'.subscriptions.lookup u = some s' →
      ∃ u' s, c.subscriptions.lookup u' = some s ∧ s.id = s'.id)
    (hl : c'.channels.length = c.channels.length) : c'.Grounded := by
  intro u s' hs'
  obtain ⟨u', s, hold, hid⟩ := hs hs'
  rw [hl, ← hid]
  exact h hold

theorem tracks_register (h : c.Grounded) (hr : c.register now uri version opened = (c', w)) :
    Tracks c c' ∧ w.subscription < c'.channels.length := by
  rcases joins_or_founds hr with ⟨s, hj⟩ | hf
  · have hlen : c'.channels.length = c.channels.length := by
      rw [hj.channels]
      exact List.length_modify _ _ _
    have hlt : w.subscription < c.channels.length := by
      rw [hj.waiter]
      exact h hj.found
    refine ⟨⟨h.of_lookup (fun {u s'} hs' => ?_) hlen, Nat.le_of_eq hlen.symm,
      fun x hx => advances_register h hr hx⟩, by rwa [hlen]⟩
    rw [hj.lookup] at hs'
    split at hs'
    · cases hs'
      exact ⟨uri, s, hj.found, rfl⟩
    · exact ⟨u, s', hs', rfl⟩
  · have hlen : c'.channels.length = c.channels.length + 1 := by
      rw [hf.channels]
      simp
    refine ⟨⟨fun {u s'} hs' => ?_, by omega, fun x hx => advances_register h hr hx⟩, ?_⟩
    · rw [hf.lookup] at hs'
      rw [hlen]
      split at hs'
      · cases hs'
        exact Nat.lt_succ_self _
      · exact Nat.lt_succ_of_lt (h hs')
    · rw [hf.waiter, hlen]
      exact Nat.lt_succ_self _

theorem tracks_release (h : c.Grounded) (w : Waiter) : Tracks c (c.release w) := by
  rcases release_cases c w with ⟨heq, -⟩ | ⟨s, hs, -, ⟨-, hch, -, hl⟩ | ⟨-, hch, -, hl⟩⟩
  · rw [heq]
    exact .refl h
  · have hlen : (c.release w).channels.length = c.channels.length := by
      rw [hch]
      exact List.length_modify _ _ _
    refine ⟨h.of_lookup (fun {u s'} hs' => ?_) hlen, Nat.le_of_eq hlen.symm,
      fun x _ => advances_release c w x⟩
    rw [hl] at hs'
    split at hs'
    · cases hs'
    · exact ⟨u, s', hs', rfl⟩
  · have hlen : (c.release w).channels.length = c.channels.length := by rw [hch]
    refine ⟨h.of_lookup (fun {u s'} hs' => ?_) hlen, Nat.le_of_eq hlen.symm,
      fun x _ => advances_release c w x⟩
    rw [hl] at hs'
    split at hs'
    · cases hs'
      exact ⟨w.uri, s, hs, rfl⟩
    · exact ⟨u, s', hs', rfl⟩

theorem tracks_publish (h : c.Grounded) (now : Time) (p : Wire.Publish) :
    Tracks c (c.publish now p) := by
  have hadvances := fun w (_ : w.subscription < c.channels.length) => advances_publish h now p w
  have hkept : (c.publish now p).subscriptions = c.subscriptions ∧
      (c.publish now p).channels.length = c.channels.length := by
    rcases publish_cases c now p with ⟨s, -, ⟨-, heq⟩ | ⟨-, heq⟩⟩ | ⟨-, heq⟩
    · rw [heq]
      exact ⟨rfl, rfl⟩
    · rw [heq]
      exact ⟨rfl, List.length_modify _ _ _⟩
    · have ht := thins_withRoom c now (c.subject p)
      rw [heq]
      exact ⟨ht.subscriptions, by rw [ht.channels]⟩
  obtain ⟨hsub, hlen⟩ := hkept
  exact ⟨h.of_lookup (fun hs => ⟨_, _, by rwa [← hsub], rfl⟩) hlen, Nat.le_of_eq hlen.symm, hadvances⟩

theorem tracks_reject (h : c.Grounded) (uri : String) (version : Option Int) (reason : String) :
    Tracks c (c.reject uri version reason).1 := by
  have hadvances := fun w (_ : w.subscription < c.channels.length) =>
    advances_reject h uri version reason w
  have hkept : (c.reject uri version reason).1.subscriptions = c.subscriptions ∧
      (c.reject uri version reason).1.channels.length = c.channels.length := by
    obtain ⟨c', ht, heq | ⟨s, -, -, heq⟩⟩ := reject_cases c uri version reason
    · rw [heq]
      exact ⟨ht.subscriptions, by rw [ht.channels]⟩
    · rw [heq]
      exact ⟨ht.subscriptions, (List.length_modify _ _ _).trans (by rw [ht.channels])⟩
  obtain ⟨hsub, hlen⟩ := hkept
  exact ⟨h.of_lookup (fun hs => ⟨_, _, by rwa [← hsub], rfl⟩) hlen, Nat.le_of_eq hlen.symm, hadvances⟩

theorem tracks_disconnect (c : Collector) : Tracks c c.disconnect where
  grounded hs := by
    rw [subscriptions_disconnect] at hs
    cases hs
  length := Nat.le_of_eq (length_disconnect c).symm
  advances w _ := advances_disconnect c w

end Collector

/-! ## Waits -/

namespace Wait

variable {now : Time} {c c' : Collector} {w w' : Wait}

/-- Whoever waits for a quiet period has seen a snapshot, unless it has been replaced since. -/
def Heeds (c : Collector) (w : Wait) : Prop :=
  ∀ deadline quietUntil seen, w.phase = .quiet deadline quietUntil seen →
    seen ≤ (c.channelOf w.waiter).revision ∧
      ((c.channelOf w.waiter).revision = seen →
        (c.channelOf w.waiter).snapshot.isPending = false)

/-- A replacement does not escape a wait. -/
theorem Heeds.advances (h : w.Heeds c) (ha : Collector.Advances c c' w.waiter) : w.Heeds c' := by
  intro deadline quietUntil seen hp
  obtain ⟨hle, hsnap⟩ := h deadline quietUntil seen hp
  rcases ha with ⟨hr, hx⟩ | hlt
  · rw [hr, hx]
    exact ⟨hle, hsnap⟩
  · exact ⟨Nat.le_of_lt (Nat.lt_of_le_of_lt hle hlt), fun heq => absurd hlt (by omega)⟩

/-- Nothing that happens to the collector escapes a wait. -/
theorem Heeds.tracks (h : w.Heeds c) (ht : c.Tracks c')
    (hw : w.waiter.subscription < c.channels.length) : w.Heeds c' :=
  h.advances (ht.advances w.waiter hw)

theorem heeds_of_begin (hp : w.phase = .begin) : w.Heeds c := by
  intro deadline quietUntil seen hq
  rw [hp] at hq
  cases hq

/-- A wait that goes on has seen what is there now. -/
theorem heeds_of_next (h : w.step now c = .next c' w') : w'.Heeds c := by
  have hsteps := steps now c w
  rw [h] at hsteps
  intro deadline quietUntil seen hq
  cases hsteps with
  | begins => cases hq
  | seen hp hsnap =>
    cases hq
    exact ⟨Nat.le_refl _, fun _ => hsnap⟩
  | replaced => cases hq

/-- A wait that succeeds gives what its channel holds then. -/
theorem Heeds.published_of_done (h : w.Heeds c) {ds : List Wire.Diagnostic}
    (hd : w.step now c = .done c' (.ok ds)) : (c.channelOf w.waiter).snapshot = .published ds :=
  Wait.published_of_done (fun deadline quietUntil seen hp => (h deadline quietUntil seen hp).2) hd

end Wait

end DiagnosticBroker
