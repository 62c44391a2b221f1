import DiagnosticBroker.Proofs.Instance.Events
import DiagnosticBroker.Proofs.Instance.Waiters
import Mathlib.Algebra.Order.Group.Multiset
import Mathlib.Tactic.Abel

/-!
# Requests and responses under way

Requests are made by callers, by the start and by shutdowns, and whoever makes one goes through the
same steps. `Instance.traffic` is what an instance has on its requests, `Scene.exchanges` are the
requests that somebody is at, and `Scene.mail` is what the responses come to that an event brings.

Results:
* `traffic_send`, `traffic_openDocument` and so on: what operations do to the traffic.
* `exists_exchanges_request` and so on: what becomes of the requests that somebody is at.
* `exists_traced`: every run has its mail.
-/

namespace DiagnosticBroker

open Instance (Exchange Answer Shutdown Start)

/-! ## What an instance has on its requests -/

/-- The request that a frame carries. -/
def Wire.Message.request? : Wire.Message → Option Wire.Request
  | .request r => some r
  | _ => none

/-- The response that a reader has read and is about to hand over. -/
def Reading.hand? : Reading → Option Wire.Response
  | .delivering _ r => some r
  | _ => none

/-- What an instance has on its requests and their answers. -/
structure Traffic where
  nextId : Nat
  pending : List Nat
  answers : List (Nat × Wire.Response)
  /-- The requests that were queued, in order. -/
  asked : List Wire.Request
  reader : Reading

namespace Instance

variable {i j : Instance}

def asked (i : Instance) : List Wire.Request := i.queued.filterMap Wire.Message.request?

/-- What the reader of the link is doing, if there is one. -/
def reader (i : Instance) : Reading := (i.link? 0).elim .idle (·.reader)

def traffic (i : Instance) : Traffic := ⟨i.nextId, i.pending, i.answers, i.asked, i.reader⟩

theorem reader_modifyLink (n : Nat) {f : Link → Link} (hr : ∀ l, (f l).reader = l.reader) :
    (i.modifyLink n f).reader = i.reader := by
  unfold reader
  rw [link?_modifyLink]
  split_ifs with h
  · subst h
    cases i.link? 0 with
    | none => rfl
    | some l => exact hr l
  · rfl

/-- Changes of a link that leave its frames and its reader alone. -/
theorem traffic_modifyLink (n : Nat) {f : Link → Link} (hf : ∀ l, (f l).frames = l.frames)
    (hr : ∀ l, (f l).reader = l.reader) : (i.modifyLink n f).traffic = i.traffic := by
  rw [traffic, asked, queued_modifyLink n hf, reader_modifyLink n hr]
  rfl

theorem traffic_setWriter (i : Instance) (n : Nat) (w : Writing) :
    (i.setWriter n w).traffic = i.traffic :=
  traffic_modifyLink n (fun _ => rfl) fun _ => rfl

theorem traffic_takeFrame (i : Instance) (n : Nat) (m : Wire.Message) :
    (i.takeFrame n m).traffic = i.traffic :=
  traffic_modifyLink n (fun _ => rfl) fun _ => rfl

theorem traffic_setReader {l : Link} (hl : i.link? 0 = some l) (r : Reading) :
    (i.setReader 0 r).traffic = { i.traffic with reader := r } := by
  have hq : (i.setReader 0 r).queued = i.queued := queued_modifyLink 0 fun _ => rfl
  have hr : (i.setReader 0 r).reader = r := by simp [setReader, reader, link?_modifyLink, hl]
  rw [traffic, asked, hq, hr]
  rfl

@[simp]
theorem traffic_markDegraded (i : Instance) : i.markDegraded.traffic = i.traffic := by
  unfold markDegraded
  cases i.lifecycle <;> rfl

theorem reader_send (i : Instance) (m : Wire.Message) : (i.send m).1.reader = i.reader := by
  unfold send
  split
  · rfl
  · split_ifs
    · exact congrArg Traffic.reader (traffic_markDegraded i)
    · exact reader_modifyLink _ fun _ => rfl

theorem traffic_send (i : Instance) (m : Wire.Message) :
    (i.send m).1.traffic = { i.traffic with asked := (i.send m).1.asked } := by
  rw [traffic, reader_send i m]
  unfold send
  split
  · rfl
  · split_ifs
    · have hd := traffic_markDegraded i
      simp only [traffic, Traffic.mk.injEq] at hd ⊢
      simp [hd]
    · rfl

/-- Only requests add to what was asked. -/
theorem traffic_send_of_none {m : Wire.Message} (hm : m.request? = none) :
    (i.send m).1.traffic = i.traffic := by
  rw [traffic_send, asked, filterMap_queued_send hm]
  rfl

theorem traffic_notify (i : Instance) (method : String) (params : Option Json) :
    (i.notify method params).1.traffic = i.traffic := traffic_send_of_none rfl

theorem traffic_send_request (hi : i.Linked) (hs : i.canSend = true) (r : Wire.Request) :
    (i.send (.request r)).1.traffic = { i.traffic with asked := i.asked ++ [r] } := by
  rw [traffic_send, asked, queued_send hi hs, List.filterMap_append]
  rfl

theorem traffic_send_of_not_canSend (hs : i.canSend = false) (m : Wire.Message) :
    (i.send m).1.traffic = i.traffic := by
  rw [traffic_send, asked, queued_send_of_not_canSend hs]
  rfl

theorem traffic_openDocument (i : Instance) (now : Time) (uri languageId text : String) :
    (i.openDocument now uri languageId text).1.traffic = i.traffic := by
  have hm : (announcement uri languageId text (i.nextVersion uri)
      (i.documents.lookup uri).isSome).request? = none := by
    unfold announcement
    split_ifs <;> rfl
  have hs := traffic_send_of_none (i := i.withCollector (i.registration now uri).1) hm
  rw [openDocument_eq]
  simp only
  split <;> exact hs

theorem traffic_closeDocument (i : Instance) (uri : String) :
    (i.closeDocument uri).1.traffic = i.traffic := by
  unfold closeDocument
  split
  · rfl
  · split_ifs
    · exact traffic_notify { i with documents := i.documents.filter fun e => e.1 ≠ uri }
        Wire.DidClose.method (some (Wire.DidClose.mk uri).encode)
    · rfl

theorem traffic_takeNotification (i : Instance) (now : Time) (n : Wire.Notification) :
    (i.takeNotification now n).traffic = i.traffic := by
  unfold takeNotification
  simp only
  split_ifs
  · unfold takePublish
    split
    · rfl
    · split <;> rfl
  · unfold takeLogLine
    split <;> rfl
  · rfl

theorem traffic_shut (i : Instance) : i.shut.traffic = i.traffic := by
  have hseal : ∀ k, (i.sealLink k).traffic = i.traffic := fun k =>
    traffic_modifyLink k (fun _ => rfl) fun _ => rfl
  unfold shut hangUp
  simp only
  split
  · exact hseal _
  · rfl

theorem traffic_attached (hl : i.links = []) (s : Start) :
    (Start.attached i s).traffic = i.traffic := by
  unfold Start.attached connect
  cases i.outgoing <;>
    simp [traffic, asked, queued, reader, link?, sealLink, modifyLink, hl]

/-- The requests that wait, each with an error. -/
def failures (i : Instance) (error : Wire.ResponseError) : List (Nat × Wire.ResponseError) :=
  i.pending.map fun n => (n, error)

/-- The answer to a request that is failed. -/
def failure (f : Nat × Wire.ResponseError) : Nat × Wire.Response :=
  (f.1, .failure (some (.number f.1)) f.2)

theorem traffic_failPending (i : Instance) (error : Wire.ResponseError) :
    (i.failPending error).traffic =
      { i.traffic with
        pending := []
        answers := i.answers ++ (i.failures error).map failure } := by
  simp [traffic, failPending, failures, failure, asked, queued, reader, link?, Function.comp_def]

theorem traffic_abandon (i : Instance) (text : String) :
    (i.abandon text).traffic =
      { i.traffic with
        pending := []
        answers := i.answers ++ (i.failures (lostError text)).map failure } :=
  traffic_failPending i (lostError text)

end Instance

/-! ## The requests that somebody is at -/

/-- The request that a shutdown makes. -/
def Instance.Shutdown.exchange? : Shutdown → Option Exchange
  | asking x _ => some x
  | _ => none

/-- The request that a start makes. -/
def Instance.Start.exchange? (s : Start) : Option Exchange :=
  match s.phase with
  | .handshake x => some x
  | _ => none

/-- An element or none. -/
def atMost {α : Type} (a : Option α) : Multiset α := (a.toList : Multiset α)

@[simp]
theorem atMost_none {α : Type} : atMost (none : Option α) = 0 := rfl

@[simp]
theorem atMost_some {α : Type} (a : α) : atMost (some a) = {a} := rfl

/-- Replacing an element of a list replaces what is taken of it. -/
theorem exists_filterMap_set {α β : Type} {l : List α} {n : Nat} {a : α} (h : l[n]? = some a)
    (f : α → Option β) : ∃ rest : Multiset β, (l.filterMap f : Multiset β) = atMost (f a) + rest ∧
      ∀ b, ((l.set n b).filterMap f : Multiset β) = atMost (f b) + rest := by
  obtain ⟨l₁, l₂, rfl, hset⟩ := split_of_getElem? h
  have hmid : ∀ b, ((l₁ ++ b :: l₂).filterMap f : Multiset β) =
      atMost (f b) + (l₁.filterMap f ++ l₂.filterMap f : List β) := by
    intro b
    rw [List.filterMap_append, List.filterMap_cons]
    cases f b with
    | none => simp
    | some c =>
      simp only [atMost_some, Multiset.singleton_add, Multiset.cons_coe]
      exact Multiset.coe_eq_coe.mpr List.perm_middle
  exact ⟨_, hmid a, fun b => by rw [hset, hmid b]⟩

/-- Replacing an element of a list replaces what it counts for. -/
theorem exists_countP_set {α : Type} {l : List α} {n : Nat} {a : α} (h : l[n]? = some a)
    (p : α → Bool) : ∃ k, l.countP p = k + (p a).toNat ∧
      ∀ b, (l.set n b).countP p = k + (p b).toNat := by
  obtain ⟨l₁, l₂, rfl, hset⟩ := split_of_getElem? h
  have hmid : ∀ b, (l₁ ++ b :: l₂).countP p = l₁.countP p + l₂.countP p + (p b).toNat := by
    intro b
    cases hb : p b <;> simp [hb, Nat.add_assoc]
  exact ⟨_, hmid a, fun b => by rw [hset, hmid b]⟩

namespace Scene

variable {P : Scene → Event → Prop} {s s' : Scene} {e : Event} {i : Instance}

/-- The requests that somebody is at. -/
def exchanges (s : Scene) : Multiset Exchange :=
  (s.requests.filterMap Task.rest? : Multiset Exchange) +
    ((s.shutdowns.filterMap fun t => t.rest?.bind Shutdown.exchange? :
      List Exchange) : Multiset Exchange) +
    atMost (s.start.rest?.bind Start.exchange?)

/-- What is at the place of a request changes. -/
theorem exists_exchanges_request {n : Nat} {t : Task Exchange Answer}
    (hn : s.requests[n]? = some t) : ∃ rest, s.exchanges = atMost t.rest? + rest ∧
      ∀ i t', ({ s with client := i, requests := s.requests.set n t' } : Scene).exchanges =
        atMost t'.rest? + rest := by
  obtain ⟨rest, h, hset⟩ := exists_filterMap_set hn Task.rest?
  exact ⟨_, by rw [exchanges, h, add_assoc, add_assoc],
    fun i t' => by rw [exchanges, hset, add_assoc, add_assoc]⟩

/-- What is at the place of a shutdown changes. -/
theorem exists_exchanges_shutdown {n : Nat} {t : Task Shutdown Unit}
    (hn : s.shutdowns[n]? = some t) :
    ∃ rest, s.exchanges = atMost (t.rest?.bind Shutdown.exchange?) + rest ∧
      ∀ i t', ({ s with client := i, shutdowns := s.shutdowns.set n t' } : Scene).exchanges =
        atMost (t'.rest?.bind Shutdown.exchange?) + rest := by
  obtain ⟨rest, h, hset⟩ := exists_filterMap_set hn fun t => t.rest?.bind Shutdown.exchange?
  refine ⟨rest + (s.requests.filterMap Task.rest? + atMost (s.start.rest?.bind Start.exchange?)),
    ?_, fun i t' => ?_⟩
  · rw [exchanges, h]
    abel
  · rw [exchanges, hset]
    change _ + _ + atMost (s.start.rest?.bind Start.exchange?) = _
    abel

/-- What is at the place of the start changes. -/
theorem exists_exchanges_start (s : Scene) :
    ∃ rest, s.exchanges = atMost (s.start.rest?.bind Start.exchange?) + rest ∧
      ∀ i t, ({ s with client := i, start := t } : Scene).exchanges =
        atMost (t.rest?.bind Start.exchange?) + rest :=
  ⟨_, add_comm _ _, fun _ _ => add_comm _ _⟩

theorem exchanges_append_request (i : Instance) (t : Task Exchange Answer) :
    ({ s with client := i, requests := s.requests ++ [t] } : Scene).exchanges =
      atMost t.rest? + s.exchanges := by
  have h : ((s.requests ++ [t]).filterMap Task.rest? : Multiset Exchange) =
      s.requests.filterMap Task.rest? + atMost t.rest? := by
    rw [List.filterMap_append]
    cases ht : t.rest? <;> simp [ht, ← Multiset.coe_add]
  rw [exchanges, exchanges, h]
  abel

theorem mem_exchanges_of_request {n : Nat} {x : Exchange}
    (h : s.requests[n]? = some (.running x)) : x ∈ s.exchanges := by
  obtain ⟨rest, hs, -⟩ := exists_exchanges_request h
  rw [hs]
  exact Multiset.mem_add.mpr (.inl (Multiset.mem_singleton_self x))

theorem mem_exchanges_of_shutdown {n : Nat} {x : Exchange} {deadline : Time}
    (h : s.shutdowns[n]? = some (.running (.asking x deadline))) : x ∈ s.exchanges := by
  obtain ⟨rest, hs, -⟩ := exists_exchanges_shutdown h
  rw [hs]
  exact Multiset.mem_add.mpr (.inl (Multiset.mem_singleton_self x))

theorem mem_exchanges_of_start {x : Start} {y : Exchange} (hx : s.start = .running x)
    (hp : x.phase = .handshake y) : y ∈ s.exchanges := by
  have hy : s.start.rest?.bind Start.exchange? = some y := by
    simp [hx, Task.rest?, Start.exchange?, hp]
  rw [exchanges, hy]
  exact Multiset.mem_add.mpr (.inr (Multiset.mem_singleton_self y))

end Scene

/-! ## Responses -/

/-- What the responses come to that were read. -/
@[ext]
structure Mail where
  /-- The responses that the reader has read, in order. -/
  arrived : List Wire.Response := []
  /-- The responses that were handed over, each with the number of its request. -/
  handed : List (Nat × Wire.Response) := []
  /-- The requests that were failed by the client itself. -/
  failed : List (Nat × Wire.ResponseError) := []

namespace Mail

instance : Append Mail where
  append m d := ⟨m.arrived ++ d.arrived, m.handed ++ d.handed, m.failed ++ d.failed⟩

variable (m d : Mail)

@[simp]
theorem arrived_append : (m ++ d).arrived = m.arrived ++ d.arrived := rfl

@[simp]
theorem handed_append : (m ++ d).handed = m.handed ++ d.handed := rfl

@[simp]
theorem failed_append : (m ++ d).failed = m.failed ++ d.failed := rfl

@[simp]
theorem append_empty : m ++ {} = m :=
  Mail.ext (List.append_nil _) (List.append_nil _) (List.append_nil _)

/-- The numbers of the requests that were handed a response or failed. -/
def resolved : List Nat := m.handed.map (·.1) ++ m.failed.map (·.1)

end Mail

/-- The error by which a shutdown fails the requests that still wait. -/
def Instance.stopError : Wire.ResponseError := .new Fault.cancelledCode "Backend shutdown"

/-- What the responses come to when the reader goes on with what it is doing. -/
def Instance.readerMail (i : Instance) : Reading → Mail
  | .delivering id r =>
    match i.pendingFor? id with
    | some n => { handed := [(n, r)] }
    | none => {}
  | .losing => { failed := i.failures (lostError "Backend terminated unexpectedly") }
  | _ => {}

namespace Scene

variable {P : Scene → Event → Prop} {s s' : Scene} {e : Event} {i : Instance}

/-- What the responses come to that an event brings. -/
def mail (s : Scene) : Event → Mail
  | .receive (.response r) => { arrived := [r] }
  | .read => (s.client.link? 0).elim {} fun l => s.client.readerMail l.reader
  | .failFrames =>
    { failed := s.client.failures (Instance.lostError "Backend stopped reading its input") }
  | .shutdown n _ =>
    match s.shutdowns[n]? with
    | some (.running .failing) => { failed := s.client.failures Instance.stopError }
    | _ => {}
  | _ => {}

/-- What can come of a run all of whose events have a property, with the mail of the run. -/
inductive Traced (P : Scene → Event → Prop) : Scene → Mail → Prop where
  | new (backend : Backend) (budget : Budget) (roots : List String) (directory : String)
      (launch : Nat) (isProcess : Bool) (clientProcess : Nat) :
      Traced P (.new backend budget roots directory launch isProcess clientProcess) {}
  | step {s s' : Scene} {m : Mail} {e : Event} (h : Traced P s m) (he : P s e)
      (ha : s.act e = some s') : Traced P s' (m ++ s.mail e)

/-- One event after the other, with the mail. -/
def follow (s : Scene) (m : Mail) : List Event → Option (Scene × Mail)
  | [] => some (s, m)
  | e :: es => (s.act e).bind fun s' => s'.follow (m ++ s.mail e) es

theorem Traced.follow {m m' : Mail} {es : List Event} (h : Traced P s m)
    (hes : ∀ s, ∀ e ∈ es, P s e) (hf : s.follow m es = some (s', m')) : Traced P s' m' := by
  induction es generalizing s m with
  | nil =>
    cases hf
    exact h
  | cons e es ih =>
    obtain ⟨s₁, ha, hf⟩ := Option.bind_eq_some_iff.mp hf
    exact ih (h.step (hes s e (by simp)) ha) (fun s e he => hes s e (by simp [he])) hf

theorem Traced.reachable {m : Mail} (h : Traced P s m) : Reachable P s := by
  induction h with
  | new backend budget roots directory launch isProcess clientProcess => exact .new ..
  | step _ he ha ih => exact ih.step he ha

/-- What can come later of a scene and its mail. -/
inductive After (P : Scene → Event → Prop) (s : Scene) (m : Mail) : Scene → Mail → Prop where
  | refl : After P s m s m
  | step {s' s'' : Scene} {m' : Mail} {e : Event} (h : After P s m s' m') (he : P s' e)
      (ha : s'.act e = some s'') : After P s m s'' (m' ++ s'.mail e)

theorem After.traced {m m' : Mail} (h : After P s m s' m') (ht : Traced P s m) :
    Traced P s' m' := by
  induction h with
  | refl => exact ht
  | step _ he ha ih => exact ih.step he ha

/-- Every run has its mail. -/
theorem exists_traced (h : Reachable P s) : ∃ m, Traced P s m := by
  induction h with
  | new backend budget roots directory launch isProcess clientProcess => exact ⟨{}, .new ..⟩
  | step _ he ha ih =>
    obtain ⟨m, hm⟩ := ih
    exact ⟨_, hm.step he ha⟩

/-- The answer by which a backend introduces itself. -/
def greeting : Wire.Message :=
  .response (.success (.number 1) (.obj [("capabilities", .obj [])]))

/-- A run that makes the backend ready. -/
def readying : List Event :=
  connecting ++ [.start, .receive greeting, .read] ++ List.replicate 5 .start

end Scene

end DiagnosticBroker
