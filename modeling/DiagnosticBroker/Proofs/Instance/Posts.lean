import DiagnosticBroker.Proofs.Instance.Traffic

/-!
# Which frames are queued

Frames for the backend are queued by starts, requests and shutdowns, by those who open and close
documents, and by the reader, which answers what the backend asks. `Sends` says that some frames are
queued and nothing of what the backend was told of the client changes; `Posts` lists what an event
can queue.

Results:
* `sends_of_canSend`, `sends_of_not_canSend`: a frame is queued if it can be.
* `sends_of_becomes`: what a step of a request, a shutdown or a start queues.
* `posts_of_act`: what an event queues.
-/

namespace DiagnosticBroker

/-! ## The directory of a collector -/

namespace Collector

variable (c : Collector)

@[simp]
theorem directory_register (now : Time) (uri : String) (version : Int) (opened : Bool) :
    (c.register now uri version opened).1.directory = c.directory := by
  unfold register
  simp only
  split <;> rfl

@[simp]
theorem directory_release (w : Waiter) : (c.release w).directory = c.directory := by
  unfold release
  split
  · rfl
  · split_ifs <;> rfl

@[simp]
theorem directory_evictOldest : c.evictOldest.directory = c.directory := by
  unfold evictOldest
  split <;> rfl

@[simp]
theorem directory_publish (now : Time) (p : Wire.Publish) :
    (c.publish now p).directory = c.directory := by
  unfold publish
  simp only
  split
  · split_ifs <;> rfl
  · split_ifs
    · exact directory_evictOldest (c.prune now)
    · rfl

@[simp]
theorem directory_reject (uri : String) (version : Option Int) (reason : String) :
    (c.reject uri version reason).1.directory = c.directory := by
  unfold reject
  simp only
  split
  · split_ifs <;> rfl
  · rfl

@[simp]
theorem directory_disconnect : c.disconnect.directory = c.directory := by
  suffices h : ∀ (es : List (String × Subscription)) (c : Collector),
      (es.foldl (fun c e => c.close e.2.id) c).directory = c.directory from
    h c.subscriptions c
  intro es
  induction es with
  | nil => exact fun _ => rfl
  | cons e es ih => exact fun c => ih (c.close e.2.id)

end Collector

namespace Instance

variable {i j k : Instance} {ms ns : List Wire.Message} {now : Time}

/-! ## Queuing -/

/-- From `i` to `j` some frames are queued, and the places stay that the client tells of. -/
structure Sends (i : Instance) (ms : List Wire.Message) (j : Instance) : Prop where
  queued : j.queued = i.queued ++ ms
  roots : j.roots = i.roots
  directory : j.collector.directory = i.collector.directory

theorem Sends.trans (h : i.Sends ms j) (h' : j.Sends ns k) : i.Sends (ms ++ ns) k where
  queued := by rw [h'.queued, h.queued, List.append_assoc]
  roots := h'.roots.trans h.roots
  directory := h'.directory.trans h.directory

/-- What leaves the links alone queues nothing. -/
theorem Sends.of_links (hl : j.links = i.links) (hr : j.roots = i.roots)
    (hd : j.collector.directory = i.collector.directory) : i.Sends [] j :=
  ⟨by rw [List.append_nil]; simp only [Instance.queued, hl], hr, hd⟩

theorem Sends.refl (i : Instance) : i.Sends [] i := .of_links rfl rfl rfl

/-- Changes of a link that leave its frames alone queue nothing. -/
theorem Sends.modifyLink (i : Instance) (n : Nat) {f : Link → Link}
    (hf : ∀ l, (f l).frames = l.frames) : i.Sends [] (i.modifyLink n f) :=
  ⟨by rw [queued_modifyLink n hf, List.append_nil], rfl, rfl⟩

theorem sends_markDegraded (i : Instance) : i.Sends [] i.markDegraded := by
  unfold markDegraded
  cases i.lifecycle <;> exact .of_links rfl rfl rfl

theorem sends_setReader (i : Instance) (n : Nat) (r : Reading) : i.Sends [] (i.setReader n r) :=
  .modifyLink i n fun _ => rfl

theorem sends_setWriter (i : Instance) (n : Nat) (w : Writing) : i.Sends [] (i.setWriter n w) :=
  .modifyLink i n fun _ => rfl

theorem sends_of_canSend (hl : i.Linked) (hs : i.canSend = true) (m : Wire.Message) :
    i.Sends [m] (i.send m).1 := by
  refine ⟨queued_send hl hs m, ?_, by rw [collector_send]⟩
  obtain ⟨n, -, h⟩ := send_of_canSend hs m
  rw [h]
  rfl

theorem sends_of_not_canSend (hs : i.canSend = false) (m : Wire.Message) :
    i.Sends [] (i.send m).1 := by
  rcases send_of_not_canSend hs m with h | h
  · rw [h]
    exact .refl i
  · rw [h]
    exact sends_markDegraded i

/-- A frame is queued, or it is not. -/
theorem exists_sends_send (hl : i.Linked) (m : Wire.Message) :
    ∃ ms, (ms = [] ∨ ms = [m]) ∧ i.Sends ms (i.send m).1 := by
  cases hs : i.canSend with
  | true => exact ⟨[m], .inr rfl, sends_of_canSend hl hs m⟩
  | false => exact ⟨[], .inl rfl, sends_of_not_canSend hs m⟩

theorem sends_abandon (i : Instance) (text : String) : i.Sends [] (i.abandon text) :=
  .of_links rfl rfl (Collector.directory_disconnect _)

theorem sends_sealLink (i : Instance) (n : Nat) : i.Sends [] (i.sealLink n) :=
  .modifyLink i n fun _ => rfl

theorem sends_hangUp (i : Instance) : i.Sends [] i.hangUp := by
  unfold hangUp
  split
  · exact (sends_sealLink i _).trans (.of_links rfl rfl rfl)
  · exact .refl i

theorem sends_shut (i : Instance) : i.Sends [] i.shut :=
  (Sends.of_links rfl rfl rfl : i.Sends [] { i with lifecycle := .terminated }).trans
    ((sends_hangUp _).trans (.of_links rfl rfl rfl))

/-! ## Requests -/

/-- The frame that makes the backend forget a request. -/
def cancellation (id : Nat) : Wire.Message :=
  .notification (.new "$/cancelRequest" (some (.obj [("id", .nat id)])))

/-- What a step of a request can queue. -/
inductive Exchange.Posts (i : Instance) (x : Exchange) : List Wire.Message → Prop where
  | nothing : Posts i x []
  | request (hp : x.phase = .register) (hs : i.canSend = true) :
      Posts i x [.request (.new x.id x.method x.params)]
  | cancels (hp : x.phase = .giveUp) : Posts i x [cancellation x.id]

theorem Exchange.sends_of_start {method : String} {params : Option Json} {r : Except Fault Exchange}
    (h : Exchange.start i method params = (j, r)) : i.Sends [] j := by
  obtain ⟨-, hs⟩ | ⟨-, hs⟩ | ⟨-, -, hs⟩ := Exchange.start_cases i method params <;>
    cases hs.symm.trans h <;> exact .of_links rfl rfl rfl

theorem Exchange.sends_of_goes {x : Exchange} {t : Task Exchange Answer} (hl : i.Linked)
    (h : x.Goes now i j t) : ∃ ms, x.Posts i ms ∧ i.Sends ms j := by
  have hpending : i.Sends [] { i with pending := i.pending ++ [x.id] } := .of_links rfl rfl rfl
  have hc : ({ i with pending := i.pending ++ [x.id] } : Instance).canSend = i.canSend :=
    canSend_congr rfl rfl
  cases h with
  | queues hp hs =>
    have hsend := sends_of_canSend (i := { i with pending := i.pending ++ [x.id] })
      ⟨hl.atMostOne, hl.outgoing⟩ (hc.trans hs) (.request (.new x.id x.method x.params))
    exact ⟨_, .request hp hs, hpending.trans hsend⟩
  | misses hp hs _ => exact ⟨_, .nothing, hpending.trans (sends_of_not_canSend (hc.trans hs) _)⟩
  | unregisters | hears => exact ⟨_, .nothing, .of_links rfl rfl rfl⟩
  | expires => exact ⟨_, .nothing, .refl i⟩
  | givesUp hp =>
    have hforget : i.Sends [] (Exchange.forget i x.id) := .of_links rfl rfl rfl
    obtain ⟨ms, hms, hsend⟩ := exists_sends_send (i := Exchange.forget i x.id)
      ⟨hl.atMostOne, hl.outgoing⟩ (cancellation x.id)
    have hall := (hforget.trans hsend).trans (sends_markDegraded _)
    rw [List.nil_append, List.append_nil] at hall
    refine ⟨ms, ?_, hall⟩
    rcases hms with rfl | rfl
    · exact .nothing
    · exact .cancels hp

/-! ## Shutdowns -/

/-- The frame that tells the backend to exit. -/
def farewell : Wire.Message := .notification (.new "exit" none)

/-- What a step of a shutdown can queue: what its request queues, and that the backend is to exit if
it has agreed to. -/
inductive Shutdown.Posts (now : Time) (i : Instance) : Shutdown → List Wire.Message → Prop where
  | nothing {s : Shutdown} : Posts now i s []
  | asks {x : Exchange} {deadline : Time} {ms : List Wire.Message} (hx : x.Posts i ms) :
      Posts now i (.asking x deadline) ms
  | exits {x : Exchange} {deadline : Time} {j : Instance} {v : Json}
      (hx : x.Goes now i j (.ended (.ok v))) (hs : j.canSend = true) :
      Posts now i (.asking x deadline) [farewell]

/-- A request that ends well queues nothing with its last step. -/
theorem Exchange.sends_of_goes_ok {x : Exchange} {v : Json} (hl : i.Linked)
    (h : x.Goes now i j (.ended (.ok v))) : i.Sends [] j ∧ j.Linked := by
  generalize ht : (Task.ended (.ok v) : Task Exchange Answer) = t at h
  cases h with
  | hears => exact ⟨.of_links rfl rfl rfl, hl.atMostOne, hl.outgoing⟩
  | queues | misses | expires | unregisters | givesUp => cases ht

theorem Shutdown.sends_of_close {t : Task Shutdown Unit} (h : (close now i).Becomes j t) :
    i.Sends [] j := by
  obtain ⟨y, -, hclose⟩ := close_eq now i
  rw [hclose] at h
  cases h
  exact sends_shut i

theorem Shutdown.sends_of_becomes {s : Shutdown} {t : Task Shutdown Unit} {exited : Nat → Bool}
    (hl : i.Linked) (h : (s.step exited now i).Becomes j t) :
    ∃ ms, s.Posts now i ms ∧ i.Sends ms j := by
  cases s with
  | begin =>
    refine ⟨_, .nothing, ?_⟩
    rw [step] at h
    split_ifs at h
    · cases h
      exact .refl i
    · split at h <;> rename_i hx
      · cases h
        exact Exchange.sends_of_start hx
      · exact (Exchange.sends_of_start hx).trans (sends_of_close h)
    · exact sends_of_close h
  | asking x deadline =>
    rcases h.of_orAt with h | h
    · obtain ⟨x', hx, rfl⟩ | ⟨k, a, hx, h⟩ := h.of_within
      · obtain ⟨ms, hms, hsend⟩ := Exchange.sends_of_goes hl (Exchange.goes_of_becomes hx)
        exact ⟨ms, .asks hms, hsend⟩
      · have hx := Exchange.goes_of_becomes hx
        cases a with
        | error f =>
          obtain ⟨ms, hms, hsend⟩ := Exchange.sends_of_goes hl hx
          have hall := hsend.trans (sends_of_close h)
          rw [List.append_nil] at hall
          exact ⟨ms, .asks hms, hall⟩
        | ok v =>
          obtain ⟨hsend, hk⟩ := Exchange.sends_of_goes_ok hl hx
          cases hs : k.canSend with
          | true =>
            exact ⟨_, .exits hx hs,
              hsend.trans ((sends_of_canSend hk hs farewell).trans (sends_of_close h))⟩
          | false =>
            exact ⟨_, .nothing,
              hsend.trans ((sends_of_not_canSend hs farewell).trans (sends_of_close h))⟩
    · exact ⟨_, .nothing, sends_of_close h⟩
  | draining n deadline =>
    rw [step] at h
    split_ifs at h <;> cases h
    exact ⟨_, .nothing, .refl i⟩
  | reaping =>
    rw [step] at h
    split at h <;> cases h
    · exact ⟨_, .nothing, .of_links rfl rfl rfl⟩
    · exact ⟨_, .nothing, .refl i⟩
  | exiting p deadline =>
    rw [step] at h
    split_ifs at h <;> cases h
    exact ⟨_, .nothing, .refl i⟩
  | failing =>
    rw [step] at h
    cases h
    exact ⟨_, .nothing, .of_links rfl rfl (Collector.directory_disconnect _)⟩

/-! ## Starts -/

/-- The frame that tells the backend that it is taken as initialized. -/
def readiness : Wire.Message := .notification (.new "initialized" (some (.obj [])))

/-- What a step of a start can queue. -/
inductive Start.Posts (i : Instance) (s : Start) : List Wire.Message → Prop where
  | nothing : Posts i s []
  | asks {x : Exchange} {ms : List Wire.Message} (hp : s.phase = .handshake x)
      (hx : x.Posts i ms) : Posts i s ms
  | greets (hp : s.phase = .announce) : Posts i s [readiness]

theorem sends_connect (i : Instance) (launch : Nat) : i.Sends [] (i.connect launch) := by
  have hnew : ∀ k : Instance, k.Sends []
      { k with links := k.links ++ [{ launch := launch }], outgoing := some k.links.length,
               writer := some k.links.length } := fun k => ⟨by simp [queued], rfl, rfl⟩
  unfold connect
  split
  · exact (sends_sealLink i _).trans (hnew _)
  · exact hnew i

theorem Start.sends_attached (i : Instance) (s : Start) : i.Sends [] (Start.attached i s) :=
  (Sends.of_links rfl rfl rfl :
    i.Sends [] { i with process := if s.isProcess then some s.launch else none }).trans
      (sends_connect _ s.launch)

theorem Start.sends_of_goes {s : Start} {t : Task Start (Except Fault Unit)} (hl : i.Linked)
    (h : s.Goes now i j t) : ∃ ms, s.Posts i ms ∧ i.Sends ms j := by
  cases h with
  | begins => exact ⟨_, .nothing, .of_links rfl rfl rfl⟩
  | attaches hp hx =>
    exact ⟨_, .nothing, (sends_attached i s).trans (Exchange.sends_of_start hx)⟩
  | attachesInVain => exact ⟨_, .nothing, sends_attached i s⟩
  | goesOn hp hx | hearsInVain hp hx | hears hp hx _ =>
    obtain ⟨ms, hms, hsend⟩ := Exchange.sends_of_goes hl hx
    exact ⟨ms, .asks hp hms, hsend⟩
  | keeps | confirms | completes => exact ⟨_, .nothing, .of_links rfl rfl rfl⟩
  | announces hp | announcesInVain hp =>
    obtain ⟨ms, rfl | rfl, hsend⟩ := exists_sends_send hl readiness
    · exact ⟨_, .nothing, hsend⟩
    · exact ⟨_, .greets hp, hsend⟩
  | comesLate => exact ⟨_, .nothing, .refl i⟩

/-! ## Documents -/

/-- The frame that tells the backend that a document is closed. -/
def closing (uri : String) : Wire.Message :=
  .notification (.new Wire.DidClose.method (some (Wire.DidClose.mk uri).encode))

theorem exists_sends_openDocument (hl : i.Linked) (now : Time) (uri languageId text : String) :
    ∃ ms, (ms = [] ∨ ∃ version isOpen, ms = [announcement uri languageId text version isOpen]) ∧
      i.Sends ms (i.openDocument now uri languageId text).1 := by
  have hreg : i.Sends [] (i.withCollector (i.registration now uri).1) :=
    .of_links rfl rfl (Collector.directory_register ..)
  obtain ⟨ms, hms, hsend⟩ := exists_sends_send ((keeps_withCollector i _).linked hl)
    (announcement uri languageId text (i.nextVersion uri) (i.documents.lookup uri).isSome)
  refine ⟨ms, hms.imp_right fun h => ⟨_, _, h⟩, ?_⟩
  have hall := hreg.trans hsend
  rw [openDocument_eq]
  generalize (i.withCollector (i.registration now uri).1).send _ = sent at hall
  obtain ⟨j, r⟩ := sent
  cases r with
  | error f =>
    have := hall.trans (.of_links rfl rfl (Collector.directory_release j.collector _) :
      j.Sends [] (j.withCollector (j.collector.release (i.registration now uri).2)))
    rwa [List.append_nil] at this
  | ok u =>
    have := hall.trans (.of_links rfl rfl rfl :
      j.Sends [] (j.putDocument uri ⟨i.nextVersion uri, Word.nextU32 (i.references uri)⟩))
    rwa [List.append_nil] at this

theorem exists_sends_closeDocument (hl : i.Linked) (uri : String) :
    ∃ ms, (ms = [] ∨ ms = [closing uri]) ∧ i.Sends ms (i.closeDocument uri).1 := by
  unfold closeDocument
  split
  · exact ⟨[], .inl rfl, .refl i⟩
  · split_ifs
    · have hdrop : i.Sends [] (i.withoutDocument uri) := .of_links rfl rfl rfl
      obtain ⟨ms, hms, hsend⟩ := exists_sends_send (i := i.withoutDocument uri)
        ⟨hl.atMostOne, hl.outgoing⟩ (closing uri)
      exact ⟨ms, hms, hdrop.trans hsend⟩
    · exact ⟨[], .inl rfl, .of_links rfl rfl rfl⟩

/-! ## The reader and the writer -/

theorem sends_takeNotification (i : Instance) (now : Time) (n : Wire.Notification) :
    i.Sends [] (i.takeNotification now n) := by
  unfold takeNotification
  simp only
  split_ifs
  · unfold takePublish
    split
    · exact .of_links rfl rfl (Collector.directory_publish ..)
    · split
      · exact .of_links rfl rfl (Collector.directory_reject ..)
      · exact .refl i
  · unfold takeLogLine
    split
    · exact .of_links rfl rfl rfl
    · exact .refl i
  · exact .refl i

/-- Messages that are no requests make the reader queue nothing. -/
theorem sends_receive_of_not_request {m : Wire.Message} (hm : m.request? = none) (n : Nat) :
    i.Sends [] (i.receive now n m) := by
  cases m with
  | request r => cases hm
  | notification note => exact sends_takeNotification i now note
  | response r =>
    rw [receive]
    split
    · exact sends_setReader i n _
    · exact .refl i

theorem sends_readerStep (i : Instance) (n : Nat) (r : Reading) :
    i.Sends [] (i.readerStep n r) := by
  cases r with
  | idle | ended => exact .refl i
  | delivering id r =>
    have hdeliver : i.Sends [] (i.deliver id r) := by
      unfold deliver
      split <;> exact .of_links rfl rfl rfl
    exact hdeliver.trans (sends_setReader _ n _)
  | losing => exact (sends_abandon i _).trans (sends_setReader _ n _)

theorem sends_loseStream (i : Instance) (n : Nat) : i.Sends [] (i.loseStream n) := by
  unfold loseStream
  split_ifs
  · exact sends_setReader i n _
  · exact (sends_markDegraded i).trans (sends_setReader _ n _)

theorem sends_failWriter (i : Instance) (n : Nat) : i.Sends [] (i.failWriter n) := by
  unfold failWriter
  split_ifs
  · exact sends_setWriter i n _
  · exact (sends_markDegraded i).trans (sends_setWriter _ n _)

end Instance

/-! ## Events -/

namespace Scene

open Instance (Exchange Shutdown Start)

variable {s s' : Scene} {e : Event}

/-- What an event can queue, and who queues it. A request of the backend that is read while frames
can be queued, is always answered. -/
inductive Posts (s : Scene) : Event → List Wire.Message → Prop where
  | nothing {e : Event} (he : ∀ r, e = .receive (.request r) → s.client.canSend = false) :
      Posts s e []
  | starts {x : Start} {ms : List Wire.Message} (hx : s.start = .running x)
      (h : x.Posts s.client ms) : Posts s .start ms
  | exchanges {n : Nat} {x : Exchange} {ms : List Wire.Message}
      (hn : s.requests[n]? = some (.running x)) (h : x.Posts s.client ms) : Posts s (.exchange n) ms
  | shutsDown {n : Nat} {exited : Nat → Bool} {x : Shutdown} {ms : List Wire.Message}
      (hn : s.shutdowns[n]? = some (.running x)) (h : x.Posts s.now s.client ms) :
      Posts s (.shutdown n exited) ms
  | opens {uri languageId text : String} {version : Int} {isOpen : Bool} :
      Posts s (.opens uri languageId text)
        [Instance.announcement uri languageId text version isOpen]
  | closes {uri : String} : Posts s (.closes uri) [Instance.closing uri]
  | answers {r : Wire.Request} (hs : s.client.canSend = true) :
      Posts s (.receive (.request r)) [.response (s.client.answerTo r)]

/-- **Frames.** What an event queues is what `Posts` lists. -/
theorem posts_of_act (hw : s.Wired) (ha : s.act e = some s') :
    ∃ ms, s.Posts e ms ∧ s.client.Sends ms s'.client := by
  have hnone : ∀ {e i}, (∀ r, e ≠ .receive (.request r)) → s.client.Sends [] i →
      ∃ ms, s.Posts e ms ∧ s.client.Sends ms i :=
    fun he hi => ⟨[], .nothing fun r hr => absurd hr (he r), hi⟩
  have hl := hw.linked
  cases happens_of_act ha with
  | elapses | cancels | stops | leaves | waits | looks | turnsAway => exact hnone (by simp) (.refl _)
  | starts hx h =>
    obtain ⟨ms, hms, hsend⟩ := Start.sends_of_goes hl (Start.goes_of_becomes h)
    exact ⟨ms, .starts hx hms, hsend⟩
  | asks h | asksInVain h => exact hnone (by simp) (Exchange.sends_of_start h)
  | exchanges hn h =>
    obtain ⟨ms, hms, hsend⟩ := Exchange.sends_of_goes hl (Exchange.goes_of_becomes h)
    exact ⟨ms, .exchanges hn hms, hsend⟩
  | shutsDown hn h =>
    obtain ⟨ms, hms, hsend⟩ := Shutdown.sends_of_becomes hl h
    exact ⟨ms, .shutsDown hn hms, hsend⟩
  | @opens uri languageId text _ _ _ h | @opensInVain uri languageId text _ _ h =>
    obtain ⟨ms, hms, hsend⟩ :=
      Instance.exists_sends_openDocument hl s.now uri languageId text
    rw [h] at hsend
    rcases hms with rfl | ⟨version, isOpen, rfl⟩
    · exact hnone (by simp) hsend
    · exact ⟨_, .opens, hsend⟩
  | @closes uri _ _ h =>
    obtain ⟨ms, rfl | rfl, hsend⟩ := Instance.exists_sends_closeDocument hl uri <;> rw [h] at hsend
    · exact hnone (by simp) hsend
    · exact ⟨_, .closes, hsend⟩
  | drops => exact hnone (by simp) (.of_links rfl rfl (Collector.directory_release ..))
  | @receives m =>
    cases m with
    | request r =>
      cases hs : s.client.canSend with
      | true => exact ⟨_, .answers hs, Instance.sends_of_canSend hl hs _⟩
      | false => exact ⟨_, .nothing fun _ _ => hs, Instance.sends_of_not_canSend hs _⟩
    | notification n =>
      exact hnone (i := s.client.receive s.now 0 (.notification n)) (by simp)
        (Instance.sends_receive_of_not_request rfl 0)
    | response r =>
      exact hnone (i := s.client.receive s.now 0 (.response r)) (by simp)
        (Instance.sends_receive_of_not_request rfl 0)
  | loses => exact hnone (by simp) (Instance.sends_loseStream _ 0)
  | @delivers _ id r =>
    exact hnone (by simp) (Instance.sends_readerStep s.client 0 (.delivering id r))
  | abandons => exact hnone (by simp) (Instance.sends_readerStep s.client 0 .losing)
  | takes => exact hnone (by simp) (.modifyLink _ 0 fun _ => rfl)
  | writes | finishes => exact hnone (by simp) (Instance.sends_setWriter _ 0 _)
  | fails => exact hnone (by simp) (Instance.sends_failWriter _ 0)
  | failsFrames =>
    exact hnone (by simp)
      ((Instance.sends_abandon _ _).trans (Instance.sends_setWriter _ 0 _))

end Scene

end DiagnosticBroker
