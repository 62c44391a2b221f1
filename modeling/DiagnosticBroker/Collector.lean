import DiagnosticBroker.Step
import DiagnosticBroker.Uri
import DiagnosticBroker.Wire.Document

/-!
# Collecting diagnostics

A backend publishes diagnostics whenever it likes; each publish replaces the one before. The
`Collector` keeps the latest snapshot for every document that somebody waits for, so that a
`Waiter` can look at it. Publishes for other documents are kept for a while, at most 200 of them.

A snapshot lives in a *channel*, one per subscription, which counts its replacements, so that one is
noticed even if the new snapshot is equal. The channel outlives its subscription: it is closed, and
what it holds stays readable.
-/

namespace DiagnosticBroker

/-- What is known of a document's diagnostics. -/
inductive Snapshot where
  | pending
  | published (diagnostics : List Wire.Diagnostic)
  /-- The backend published something that could not be decoded. -/
  | unreadable (reason : String)

namespace Snapshot

instance : Inhabited Snapshot := ⟨pending⟩

def isPending : Snapshot → Bool
  | pending => true
  | _ => false

end Snapshot

/-- The latest snapshot for one subscription. -/
structure Channel where
  snapshot : Snapshot
  /-- How often the snapshot was replaced. -/
  revision : Nat
  /-- Whether no further snapshot will come. -/
  closed : Bool

/-- Everybody who waits for one document. -/
structure Subscription where
  /-- The index of the channel. -/
  id : Nat
  /-- The latest version of the document that was registered. -/
  version : Int
  waiters : Nat
deriving DecidableEq, Repr

/-- A publish for a document that nobody waits for. -/
structure Unclaimed where
  version : Option Int
  diagnostics : List Wire.Diagnostic
  received : Time

/-- The snapshots and subscriptions of one backend (`DiagnosticCollector`). -/
structure Collector where
  /-- How long publishes are kept that nobody waits for. -/
  retention : Duration
  /-- The directory from which relative addresses are understood. -/
  directory : String
  subscriptions : List (String × Subscription) := []
  channels : List Channel := []
  unclaimed : List (String × Unclaimed) := []

/-- The right to wait for the diagnostics of a document (`DiagnosticWaiter`). -/
structure Waiter where
  uri : String
  version : Int
  /-- The index of the channel. -/
  subscription : Nat
deriving DecidableEq, Repr

/-- Whether a publish is older than the version that somebody waits for (`is_stale`). -/
def Subscription.isStale (s : Subscription) (version : Option Int) : Bool :=
  match version with
  | some v => v < s.version
  | none => false

namespace Collector

/-- The most publishes that are kept for documents that nobody waits for (`MAX_UNCLAIMED`). -/
def maxUnclaimed : Nat := 200

/-! ## Channels -/

/-- Replaces the snapshot of a channel. -/
def send (c : Collector) (id : Nat) (snapshot : Snapshot) : Collector :=
  { c with channels :=
      c.channels.modify id fun ch => { ch with snapshot := snapshot, revision := ch.revision + 1 } }

/-- The channel that a waiter looks at. -/
def channelOf (c : Collector) (w : Waiter) : Channel :=
  (c.channels[w.subscription]?).getD ⟨.pending, 0, true⟩

/-! ## Unclaimed publishes -/

/-- Forgets the publishes that are too old (`prune`). -/
def prune (c : Collector) (now : Time) : Collector :=
  { c with unclaimed :=
      c.unclaimed.filter fun u => Duration.ofMillis (now - u.2.received) < c.retention }

/-- The entry that was received first; of several the one that stands first. -/
def oldest? : List (String × Unclaimed) → Option (String × Unclaimed)
  | [] => none
  | u :: us =>
    match oldest? us with
    | none => some u
    | some o => if o.2.received < u.2.received then some o else some u

/-- Removes the entry for a document. -/
def forget (c : Collector) (uri : String) : Collector :=
  { c with unclaimed := c.unclaimed.filter fun u => u.1 ≠ uri }

/-- Makes room for one more entry (`evict_oldest`). -/
def evictOldest (c : Collector) : Collector :=
  match oldest? c.unclaimed with
  | some o => c.forget o.1
  | none => c

/-! ## Registering -/

/-- The snapshot that a registration starts from: a kept publish only if it covers the version. This
is the part of `register` that looks at what is unclaimed. -/
def seed (u : Option Unclaimed) (version : Int) : Snapshot :=
  match u with
  | some ⟨some v, ds, _⟩ => if version ≤ v then .published ds else .pending
  | _ => .pending

/-- Puts a subscription in the place of the one for the same document, or in front of all. -/
def putSubscription (c : Collector) (uri : String) (s : Subscription) : Collector :=
  { c with subscriptions :=
      (uri, s) :: c.subscriptions.filter fun e => e.1 ≠ uri }

/-- Registers a waiter for a version of a document (`register`). `opened` tells that the document
was closed before, so that versions start over: it is set by `register_open` and not by
`register_change`. -/
def register (c : Collector) (now : Time) (uri : String) (version : Int) (opened : Bool) :
    Collector × Waiter :=
  let c := c.prune now
  let snapshot := seed (c.unclaimed.lookup uri) version
  let c := c.forget uri
  match c.subscriptions.lookup uri with
  | some s =>
    let s' := { s with
      version := if opened then version else max s.version version
      waiters := s.waiters + 1 }
    ((c.putSubscription uri s').send s.id snapshot, ⟨uri, version, s.id⟩)
  | none =>
    let id := c.channels.length
    let c := { c with channels := c.channels ++ [Channel.mk snapshot 0 false] }
    (c.putSubscription uri ⟨id, version, 1⟩, ⟨uri, version, id⟩)

/-- Closes a channel. -/
def close (c : Collector) (id : Nat) : Collector :=
  { c with channels := c.channels.modify id fun ch => { ch with closed := true } }

/-- Gives a waiter back (`release`, when a waiter is dropped). The last one of a document ends its
subscription. -/
def release (c : Collector) (w : Waiter) : Collector :=
  match c.subscriptions.lookup w.uri with
  | none => c
  | some s =>
    if s.id ≠ w.subscription then c
    else if s.waiters ≤ 1 then
      { c.close s.id with subscriptions := c.subscriptions.filter fun e => e.1 ≠ w.uri }
    else c.putSubscription w.uri { s with waiters := s.waiters - 1 }

/-! ## What backends publish -/

/-- Takes in a publish (`publish`). -/
def publish (c : Collector) (now : Time) (p : Wire.Publish) : Collector :=
  let uri := Uri.normalize c.directory p.uri
  match c.subscriptions.lookup uri with
  | some s => if s.isStale p.version then c else c.send s.id (.published p.diagnostics)
  | none =>
    let c := c.prune now
    let c :=
      if maxUnclaimed ≤ c.unclaimed.length && (c.unclaimed.lookup uri).isNone then c.evictOldest
      else c
    let c := c.forget uri
    { c with unclaimed := c.unclaimed ++ [(uri, ⟨p.version, p.diagnostics, now⟩)] }

/-- Takes in a publish that could not be decoded, and tells whether anybody waited for it
(`reject`). -/
def reject (c : Collector) (uri : String) (version : Option Int) (reason : String) :
    Collector × Bool :=
  let uri := Uri.normalize c.directory uri
  let c := c.forget uri
  match c.subscriptions.lookup uri with
  | some s =>
    if s.isStale version then (c, false)
    else (c.send s.id (.unreadable reason), true)
  | none => (c, false)

/-- Ends all subscriptions, because the backend is gone (`disconnect`). -/
def disconnect (c : Collector) : Collector :=
  let c := c.subscriptions.foldl (fun c e => c.close e.2.id) c
  { c with subscriptions := [], unclaimed := [] }

/-! ## Looking -/

/-- Whether anybody waits for a document (`is_awaited`). -/
def isAwaited (c : Collector) (uri : String) : Bool := (c.subscriptions.lookup uri).isSome

/-- How many publishes are kept that nobody waits for (`unclaimed_len`). -/
def unclaimedCount (c : Collector) (now : Time) : Collector × Nat :=
  let c := c.prune now
  (c, c.unclaimed.length)

end DiagnosticBroker.Collector
