import DiagnosticBroker.Assoc
import DiagnosticBroker.Collector

/-!
# What the operations of a collector do

Every operation is described by what it does to the subscription of each document, to the channel
that each waiter looks at, and to the publishes that nobody waits for.

Results:
* `channelOf_send`, `channelOf_close`: what a channel shows after it was changed.
* `joins_or_founds`: a registration joins a subscription or founds one.
* `publish_cases`, `reject_cases`: what a publish does.
* `isClosed_disconnect`: which channels are closed when the backend is gone.
-/

namespace DiagnosticBroker.Collector

variable {c c' : Collector} {now : Time} {uri : String} {version : Int} {opened : Bool}
  {w w' : Waiter} {sub : Subscription}

/-! ## Channels -/

/-- Whether no snapshot will come through a channel any more. -/
def isClosed (c : Collector) (id : Nat) : Bool :=
  match c.channels[id]? with
  | some ch => ch.closed
  | none => true

theorem closed_channelOf (c : Collector) (w : Waiter) :
    (c.channelOf w).closed = c.isClosed w.subscription := by
  unfold channelOf isClosed
  cases c.channels[w.subscription]? <;> rfl

theorem lt_of_isClosed_eq_false {id : Nat} (h : c.isClosed id = false) :
    id < c.channels.length := by
  unfold isClosed at h
  split at h
  · rename_i ch hch
    exact (List.getElem?_eq_some_iff.mp hch).1
  · cases h

theorem channelOf_congr (h : c'.channels = c.channels) (w : Waiter) :
    c'.channelOf w = c.channelOf w := by
  rw [channelOf, channelOf, h]

theorem isClosed_congr (h : c'.channels = c.channels) (id : Nat) :
    c'.isClosed id = c.isClosed id := by
  rw [isClosed, isClosed, h]

/-- What a waiter sees after a snapshot was replaced. -/
theorem channelOf_send {id : Nat} (hid : id < c.channels.length) (x : Snapshot) (w : Waiter) :
    (c.send id x).channelOf w =
      if w.subscription = id then
        ⟨x, (c.channelOf w).revision + 1, (c.channelOf w).closed⟩
      else c.channelOf w := by
  unfold channelOf send
  simp only [List.getElem?_modify]
  by_cases h : w.subscription = id
  · have hsome : c.channels[w.subscription]? = some c.channels[id] := by
      rw [h]
      exact List.getElem?_eq_getElem hid
    simp [h]
    rw [← h] at hid ⊢
    simp [List.getElem?_eq_getElem hid]
  · have h' : id ≠ w.subscription := fun h' => h h'.symm
    simp [h, h']

@[simp]
theorem isClosed_send (c : Collector) (id : Nat) (x : Snapshot) (n : Nat) :
    (c.send id x).isClosed n = c.isClosed n := by
  unfold isClosed send
  simp only [List.getElem?_modify]
  cases c.channels[n]? with
  | none => rfl
  | some ch =>
    by_cases h : id = n
    · simp [h]
    · simp [h]

/-- What a waiter sees after a channel was closed. -/
theorem channelOf_close (c : Collector) (id : Nat) (w : Waiter) :
    (c.close id).channelOf w =
      if w.subscription = id then { c.channelOf w with closed := true } else c.channelOf w := by
  unfold channelOf close
  simp only [List.getElem?_modify]
  cases hch : c.channels[w.subscription]? with
  | none => simp
  | some ch =>
    by_cases h : w.subscription = id
    · simp [h]
    · simp [h, Ne.symm h]

theorem isClosed_close (c : Collector) (id n : Nat) :
    (c.close id).isClosed n = (c.isClosed n || decide (n = id)) := by
  unfold isClosed close
  simp only [List.getElem?_modify]
  cases c.channels[n]? with
  | none => rfl
  | some ch =>
    by_cases h : n = id
    · simp [h]
    · simp [h, Ne.symm h]

/-! ## Registering -/

/-- The publishes that are left when a document is registered. -/
def remaining (c : Collector) (now : Time) (uri : String) : List (String × Unclaimed) :=
  ((c.prune now).forget uri).unclaimed

/-- The snapshot that a registration starts from. -/
def seedFor (c : Collector) (now : Time) (uri : String) (version : Int) : Snapshot :=
  seed ((c.prune now).unclaimed.lookup uri) version

/-- The registration joins the subscription `s`. -/
structure Joins (c : Collector) (now : Time) (uri : String) (version : Int) (opened : Bool)
    (s : Subscription) (c' : Collector) (w : Waiter) : Prop where
  waiter : w = ⟨uri, version, s.id⟩
  found : c.subscriptions.lookup uri = some s
  lookup : ∀ u, c'.subscriptions.lookup u =
    if u = uri then
      some ⟨s.id, if opened then version else max s.version version, s.waiters + 1⟩
    else c.subscriptions.lookup u
  channels : c'.channels = (c.send s.id (c.seedFor now uri version)).channels
  unclaimed : c'.unclaimed = c.remaining now uri

/-- The registration founds a subscription. -/
structure Founds (c : Collector) (now : Time) (uri : String) (version : Int)
    (c' : Collector) (w : Waiter) : Prop where
  waiter : w = ⟨uri, version, c.channels.length⟩
  missing : c.subscriptions.lookup uri = none
  lookup : ∀ u, c'.subscriptions.lookup u =
    if u = uri then some ⟨c.channels.length, version, 1⟩ else c.subscriptions.lookup u
  channels : c'.channels = c.channels ++ [⟨c.seedFor now uri version, 0, false⟩]
  unclaimed : c'.unclaimed = c.remaining now uri

theorem joins_or_founds (h : c.register now uri version opened = (c', w)) :
    (∃ s, Joins c now uri version opened s c' w) ∨ Founds c now uri version c' w := by
  have hsame : ((c.prune now).forget uri).subscriptions = c.subscriptions := rfl
  unfold register at h
  simp only [hsame] at h
  cases hs : c.subscriptions.lookup uri with
  | some s =>
    rw [hs] at h
    obtain ⟨rfl, rfl⟩ := Prod.mk.inj h
    exact .inl ⟨s, rfl, hs, fun u => Assoc.lookup_put uri u _ _, rfl, rfl⟩
  | none =>
    rw [hs] at h
    obtain ⟨rfl, rfl⟩ := Prod.mk.inj h
    exact .inr ⟨rfl, hs, fun u => Assoc.lookup_put uri u _ _, rfl, rfl⟩

theorem uri_of_register (h : c.register now uri version opened = (c', w)) : w.uri = uri := by
  rcases joins_or_founds h with ⟨s, hj⟩ | hf
  · rw [hj.waiter]
  · rw [hf.waiter]

theorem unclaimed_of_register (h : c.register now uri version opened = (c', w)) :
    c'.unclaimed = c.remaining now uri := by
  rcases joins_or_founds h with ⟨s, hj⟩ | hf
  · exact hj.unclaimed
  · exact hf.unclaimed

/-- Registering a document leaves the subscriptions of all others. -/
theorem lookup_of_register {u : String} (h : c.register now uri version opened = (c', w))
    (hu : u ≠ uri) : c'.subscriptions.lookup u = c.subscriptions.lookup u := by
  rcases joins_or_founds h with ⟨s, hj⟩ | hf
  · rw [hj.lookup, if_neg hu]
  · rw [hf.lookup, if_neg hu]

theorem Founds.channelOf_of_lt (h : Founds c now uri version c' w)
    (hw : w'.subscription < c.channels.length) : c'.channelOf w' = c.channelOf w' := by
  rw [channelOf, channelOf, h.channels, List.getElem?_append_left hw]

theorem Founds.channelOf_self (h : Founds c now uri version c' w) :
    c'.channelOf w = ⟨c.seedFor now uri version, 0, false⟩ := by
  rw [channelOf, h.channels, h.waiter]
  simp

theorem Founds.isClosed (h : Founds c now uri version c' w) (id : Nat) :
    c'.isClosed id = if id = c.channels.length then false else c.isClosed id := by
  unfold Collector.isClosed
  rw [h.channels]
  by_cases hid : id = c.channels.length
  · simp [hid]
  · rw [if_neg hid]
    rcases Nat.lt_or_ge id c.channels.length with hlt | hge
    · rw [List.getElem?_append_left hlt]
    · have hgt : c.channels.length < id := by omega
      rw [List.getElem?_eq_none hge, List.getElem?_eq_none (by simp; omega)]

theorem Joins.channelOf (h : Joins c now uri version opened sub c' w)
    (hs : sub.id < c.channels.length) (w' : Waiter) :
    c'.channelOf w' =
      if w'.subscription = sub.id then
        ⟨c.seedFor now uri version, (c.channelOf w').revision + 1, (c.channelOf w').closed⟩
      else c.channelOf w' := by
  rw [channelOf_congr h.channels]
  exact channelOf_send hs _ w'

theorem Joins.isClosed (h : Joins c now uri version opened sub c' w) (id : Nat) :
    c'.isClosed id = c.isClosed id := by
  rw [isClosed_congr h.channels, isClosed_send]

/-! ## Releasing -/

/-- What giving a waiter back does. -/
theorem release_cases (c : Collector) (w : Waiter) :
    (c.release w = c ∧ ∀ s, c.subscriptions.lookup w.uri = some s → s.id ≠ w.subscription) ∨
    ∃ s, c.subscriptions.lookup w.uri = some s ∧ s.id = w.subscription ∧
      ((s.waiters ≤ 1 ∧ (c.release w).channels = (c.close s.id).channels ∧
        (c.release w).unclaimed = c.unclaimed ∧
        ∀ u, (c.release w).subscriptions.lookup u =
          if u = w.uri then none else c.subscriptions.lookup u) ∨
      (1 < s.waiters ∧ (c.release w).channels = c.channels ∧
        (c.release w).unclaimed = c.unclaimed ∧
        ∀ u, (c.release w).subscriptions.lookup u =
          if u = w.uri then some { s with waiters := s.waiters - 1 }
          else c.subscriptions.lookup u)) := by
  unfold release
  cases hs : c.subscriptions.lookup w.uri with
  | none => exact .inl ⟨rfl, by simp⟩
  | some s =>
    simp only
    by_cases hid : s.id ≠ w.subscription
    · rw [if_pos hid]
      exact .inl ⟨rfl, fun s' hs' => by cases hs'; exact hid⟩
    · rw [if_neg hid]
      right
      refine ⟨s, rfl, by simpa using hid, ?_⟩
      by_cases hlast : s.waiters ≤ 1
      · rw [if_pos hlast]
        refine .inl ⟨hlast, rfl, rfl, fun u => ?_⟩
        by_cases hu : u = w.uri
        · rw [if_pos hu, hu]
          exact Assoc.lookup_filter_self w.uri _
        · rw [if_neg hu]
          exact Assoc.lookup_filter_of_ne hu _
      · rw [if_neg hlast]
        exact .inr ⟨by omega, rfl, rfl, fun u => Assoc.lookup_put w.uri u _ _⟩

/-- Giving a waiter back leaves the snapshots of all. -/
theorem snapshot_release (c : Collector) (w x : Waiter) :
    ((c.release w).channelOf x).snapshot = (c.channelOf x).snapshot := by
  rcases release_cases c w with ⟨heq, -⟩ | ⟨s, -, -, ⟨-, hch, -, -⟩ | ⟨-, hch, -, -⟩⟩
  · rw [heq]
  · rw [channelOf_congr hch, channelOf_close]
    split <;> rfl
  · rw [channelOf_congr hch]

theorem unclaimed_release (c : Collector) (w : Waiter) :
    (c.release w).unclaimed = c.unclaimed := by
  rcases release_cases c w with ⟨heq, -⟩ | ⟨s, -, -, ⟨-, -, hu, -⟩ | ⟨-, -, hu, -⟩⟩
  · rw [heq]
  · exact hu
  · exact hu

/-- A subscription that is left when a waiter is given back was there before. -/
theorem subscription_of_release {u : String}
    (h : (c.release w).subscriptions.lookup u = some sub) :
    ∃ s, c.subscriptions.lookup u = some s ∧ sub.version = s.version := by
  rcases release_cases c w with ⟨heq, -⟩ | ⟨s, hs, -, ⟨-, -, -, hl⟩ | ⟨-, -, -, hl⟩⟩
  · rw [heq] at h
    exact ⟨sub, h, rfl⟩
  · rw [hl] at h
    split at h
    · cases h
    · exact ⟨sub, h, rfl⟩
  · rw [hl] at h
    split at h <;> rename_i hu
    · cases h
      exact ⟨s, by rw [hu]; exact hs, rfl⟩
    · exact ⟨sub, h, rfl⟩

/-! ## Publishes -/

/-- Only publishes are left out that nobody waits for. -/
structure Thins (c c' : Collector) : Prop where
  subscriptions : c'.subscriptions = c.subscriptions
  channels : c'.channels = c.channels
  unclaimed : ∀ u ∈ c'.unclaimed, u ∈ c.unclaimed

theorem Thins.refl (c : Collector) : Thins c c := ⟨rfl, rfl, fun _ h => h⟩

theorem Thins.trans {c'' : Collector} (h : Thins c c') (h' : Thins c' c'') : Thins c c'' where
  subscriptions := h'.subscriptions.trans h.subscriptions
  channels := h'.channels.trans h.channels
  unclaimed u hu := h.unclaimed u (h'.unclaimed u hu)

theorem thins_prune (c : Collector) (now : Time) : Thins c (c.prune now) :=
  ⟨rfl, rfl, fun _ h => (List.mem_filter.mp h).1⟩

theorem thins_forget (c : Collector) (uri : String) : Thins c (c.forget uri) :=
  ⟨rfl, rfl, fun _ h => (List.mem_filter.mp h).1⟩

theorem thins_evictOldest (c : Collector) : Thins c c.evictOldest := by
  unfold evictOldest
  split
  · exact thins_forget c _
  · exact .refl c

theorem mem_of_mem_remaining {u : String × Unclaimed} (h : u ∈ c.remaining now uri) :
    u ∈ c.unclaimed :=
  ((thins_prune c now).trans (thins_forget _ uri)).unclaimed u h

/-- A registration only starts from a publish that was kept and covers the version. -/
theorem mem_of_seedFor {ds : List Wire.Diagnostic}
    (h : c.seedFor now uri version = .published ds) :
    ∃ u v, (uri, u) ∈ c.unclaimed ∧ u.version = some v ∧ version ≤ v ∧ u.diagnostics = ds := by
  unfold seedFor seed at h
  split at h
  · rename_i v ds' received hu
    split at h <;> rename_i hle
    · cases h
      have hmem := Assoc.mem_of_lookup hu
      exact ⟨_, v, (thins_prune c now).unclaimed _ hmem, rfl, hle, rfl⟩
    · cases h
  · cases h

/-- The document that a publish is about, as it is registered. -/
def subject (c : Collector) (p : Wire.Publish) : String := Uri.normalize c.directory p.uri

/-- The collector before a publish is kept that nobody waits for. -/
def withRoom (c : Collector) (now : Time) (uri : String) : Collector :=
  let c := c.prune now
  let c :=
    if maxUnclaimed ≤ c.unclaimed.length && (c.unclaimed.lookup uri).isNone then c.evictOldest
    else c
  c.forget uri

theorem thins_withRoom (c : Collector) (now : Time) (uri : String) :
    Thins c (c.withRoom now uri) := by
  refine (thins_prune c now).trans (.trans ?_ (thins_forget _ uri))
  split
  · exact thins_evictOldest _
  · exact .refl _

/-- What a publish does: it is stale, or it replaces a snapshot, or it is kept. -/
theorem publish_cases (c : Collector) (now : Time) (p : Wire.Publish) :
    (∃ s, c.subscriptions.lookup (c.subject p) = some s ∧
      ((s.isStale p.version = true ∧ c.publish now p = c) ∨
        (s.isStale p.version = false ∧
          c.publish now p = c.send s.id (.published p.diagnostics)))) ∨
    (c.subscriptions.lookup (c.subject p) = none ∧
      c.publish now p = { c.withRoom now (c.subject p) with
        unclaimed := (c.withRoom now (c.subject p)).unclaimed ++
          [(c.subject p, ⟨p.version, p.diagnostics, now⟩)] }) := by
  unfold publish subject
  simp only
  cases hs : c.subscriptions.lookup (Uri.normalize c.directory p.uri) with
  | some s =>
    refine .inl ⟨s, rfl, ?_⟩
    cases hstale : s.isStale p.version with
    | true => exact .inl ⟨rfl, by simp [hstale]⟩
    | false => exact .inr ⟨rfl, by simp [hstale]⟩
  | none => exact .inr ⟨rfl, rfl⟩

/-- What a publish does that cannot be decoded: it replaces a snapshot or nothing. -/
theorem reject_cases (c : Collector) (uri : String) (version : Option Int) (reason : String) :
    ∃ c', Thins c c' ∧ ((c.reject uri version reason).1 = c' ∨
      ∃ s, c.subscriptions.lookup (Uri.normalize c.directory uri) = some s ∧
        s.isStale version = false ∧
        (c.reject uri version reason).1 = c'.send s.id (.unreadable reason)) := by
  refine ⟨c.forget (Uri.normalize c.directory uri), thins_forget c _, ?_⟩
  have hsame : (c.forget (Uri.normalize c.directory uri)).subscriptions = c.subscriptions := rfl
  unfold reject
  simp only [hsame]
  cases hs : c.subscriptions.lookup (Uri.normalize c.directory uri) with
  | none => exact .inl rfl
  | some s =>
    simp only
    cases hstale : s.isStale version with
    | true => exact .inl rfl
    | false => exact .inr ⟨s, rfl, hstale, rfl⟩

/-! ## The end -/

theorem subscriptions_disconnect (c : Collector) : c.disconnect.subscriptions = [] := rfl

/-- Closing several channels closes these and no others. -/
theorem isClosed_foldl_close (es : List (String × Subscription)) (c : Collector) (id : Nat) :
    (es.foldl (fun c e => c.close e.2.id) c).isClosed id =
      (c.isClosed id || es.any fun e => decide (id = e.2.id)) := by
  induction es generalizing c with
  | nil => simp
  | cons e es ih => rw [List.foldl_cons, ih, isClosed_close, List.any_cons, Bool.or_assoc]

theorem isClosed_disconnect (c : Collector) (id : Nat) :
    c.disconnect.isClosed id =
      (c.isClosed id || c.subscriptions.any fun e => decide (id = e.2.id)) :=
  isClosed_foldl_close c.subscriptions c id

/-- Closing channels leaves the snapshots in them. -/
theorem channelOf_foldl_close (es : List (String × Subscription)) (c : Collector) (w : Waiter) :
    ∃ b, (es.foldl (fun c e => c.close e.2.id) c).channelOf w =
      { c.channelOf w with closed := b } := by
  induction es generalizing c with
  | nil => exact ⟨_, rfl⟩
  | cons e es ih =>
    obtain ⟨b, hb⟩ := ih (c.close e.2.id)
    rw [List.foldl_cons, hb, channelOf_close]
    split
    · exact ⟨b, rfl⟩
    · exact ⟨b, rfl⟩

theorem channelOf_disconnect (c : Collector) (w : Waiter) :
    ∃ b, c.disconnect.channelOf w = { c.channelOf w with closed := b } :=
  channelOf_foldl_close c.subscriptions c w

theorem length_disconnect (c : Collector) : c.disconnect.channels.length = c.channels.length := by
  suffices h : ∀ (es : List (String × Subscription)) (c : Collector),
      (es.foldl (fun c e => c.close e.2.id) c).channels.length = c.channels.length from
    h c.subscriptions c
  intro es
  induction es with
  | nil => intro c; rfl
  | cons e es ih =>
    intro c
    rw [List.foldl_cons, ih]
    exact List.length_modify _ _ _

end DiagnosticBroker.Collector
