import DiagnosticBroker.Proofs.Instance.Traffic

/-!
# What events do to requests and responses

`Turn` says how an event changes what an instance has on its requests and who is at which of them,
with the mail that the event brings. Everything about requests and responses is proved case by case
from it.

Results:
* `turn_of_exchange`: what a step of a request does, whoever made it.
* `turn_of_act`: what an event does.
-/

namespace DiagnosticBroker.Scene

open Instance (Exchange Answer Shutdown Start)

variable {P : Scene → Event → Prop} {s s' : Scene} {e : Event} {i : Instance}

/-! ## Turns -/

/-- How an event changes what there is on requests, and who is at which. -/
inductive Turn (s : Scene) (e : Event) : Mail → Traffic → Multiset Exchange → Prop where
  | stays : Turn s e {} s.client.traffic s.exchanges
  | begins {x : Exchange} (hl : s.client.lifecycle ≠ .notStarted)
      (hr : s.client.lifecycle.rank < 4) (hx : x.id = s.client.nextId)
      (hp : x.phase = .register) :
      Turn s e {} { s.client.traffic with nextId := s.client.nextId + 1 } (x ::ₘ s.exchanges)
  /-- Whoever was at a request is not any more. -/
  | drops {x : Exchange} {rest : Multiset Exchange} (hs : s.exchanges = x ::ₘ rest) :
      Turn s e {} s.client.traffic rest
  | queues {x : Exchange} {rest : Multiset Exchange} {deadline : Time}
      (hs : s.exchanges = x ::ₘ rest) (hp : x.phase = .register)
      (hc : s.client.canSend = true) :
      Turn s e {}
        { s.client.traffic with
          pending := s.client.pending ++ [x.id]
          asked := s.client.asked ++ [.new x.id x.method x.params] }
        ({ x with phase := .waiting deadline } ::ₘ rest)
  | misses {x : Exchange} {rest : Multiset Exchange} {f : Fault}
      (hs : s.exchanges = x ::ₘ rest) (hp : x.phase = .register)
      (hc : s.client.canSend = false) (hf : f = .notConnected ∨ f = s.client.gone) :
      Turn s e {} { s.client.traffic with pending := s.client.pending ++ [x.id] }
        ({ x with phase := .unregister f } ::ₘ rest)
  | hears {x : Exchange} {rest : Multiset Exchange} {deadline : Time} {r : Wire.Response}
      (hs : s.exchanges = x ::ₘ rest) (hp : x.phase = .waiting deadline)
      (hr : s.client.answers.lookup x.id = some r) :
      Turn s e {}
        { s.client.traffic with answers := s.client.answers.filter fun e => e.1 ≠ x.id } rest
  | expires {x : Exchange} {rest : Multiset Exchange} {deadline : Time}
      (hs : s.exchanges = x ::ₘ rest) (hp : x.phase = .waiting deadline)
      (hr : s.client.answers.lookup x.id = none) :
      Turn s e {} s.client.traffic ({ x with phase := .giveUp } ::ₘ rest)
  /-- A request is forgotten that could not be queued, or whose time is up. -/
  | forgets {x : Exchange} {rest : Multiset Exchange} (hs : s.exchanges = x ::ₘ rest)
      (hp : (∃ f, x.phase = .unregister f) ∨ x.phase = .giveUp) :
      Turn s e {} { s.client.traffic with pending := s.client.pending.erase x.id } rest
  | reads {r : Wire.Response} {id : Wire.Id} (hh : s.client.reader = .idle)
      (hr : r.id = some id) :
      Turn s e { arrived := [r] } { s.client.traffic with reader := .delivering id r } s.exchanges
  | ignores {r : Wire.Response} (hr : r.id = none) :
      Turn s e { arrived := [r] } s.client.traffic s.exchanges
  | hands {r : Wire.Response} {id : Wire.Id} {n : Nat} (hh : s.client.reader = .delivering id r)
      (hn : s.client.pendingFor? id = some n) :
      Turn s e { handed := [(n, r)] }
        { s.client.traffic with
          pending := s.client.pending.erase n
          answers := s.client.answers ++ [(n, r)]
          reader := .idle }
        s.exchanges
  /-- A response is dropped that no request waits for. -/
  | discards {r : Wire.Response} {id : Wire.Id} (hh : s.client.reader = .delivering id r)
      (hn : s.client.pendingFor? id = none) :
      Turn s e {} { s.client.traffic with reader := .idle } s.exchanges
  /-- The reader has come to the end of the stream. -/
  | loses {r : Reading} (he : e = .lose) (hh : s.client.reader = .idle)
      (hr : r = .losing ∨ r = .ended) :
      Turn s e {} { s.client.traffic with reader := r } s.exchanges
  /-- All requests that wait are failed, because the backend is lost or was stopped. -/
  | fails {error : Wire.ResponseError} {r : Reading}
      (he : (∃ text, error = Instance.lostError text) ∨ error = Instance.stopError ∧
        Task.running Shutdown.failing ∈ s.shutdowns)
      (hr : r = s.client.reader ∨ s.client.reader = .losing ∧ r = .ended) :
      Turn s e { failed := s.client.failures error }
        { s.client.traffic with
          pending := []
          answers := s.client.answers ++ (s.client.failures error).map Instance.failure
          reader := r }
        s.exchanges

/-- A step of a request is a turn. -/
theorem turn_of_exchange {x : Exchange} {t : Task Exchange Answer} {rest : Multiset Exchange}
    (hl : s.client.Linked) (hs : s.exchanges = x ::ₘ rest) (h : x.Goes s.now s.client i t) :
    s.Turn e {} i.traffic (atMost t.rest? + rest) := by
  have hl' : ({ s.client with pending := s.client.pending ++ [x.id] } : Instance).Linked :=
    ⟨hl.atMostOne, hl.outgoing⟩
  have hc' : ({ s.client with pending := s.client.pending ++ [x.id] } : Instance).canSend =
    s.client.canSend := Instance.canSend_congr rfl rfl
  have hended : ∀ a, atMost (Task.ended a : Task Exchange Answer).rest? + rest = rest :=
    fun _ => zero_add rest
  cases h with
  | queues hp hc =>
    rw [Instance.traffic_send_request hl' (hc'.trans hc)]
    exact .queues hs hp hc
  | misses hp hc hf =>
    rw [Instance.traffic_send_of_not_canSend (hc'.trans hc)]
    exact .misses hs hp hc hf
  | unregisters hp =>
    rw [hended]
    exact .forgets hs (.inl ⟨_, hp⟩)
  | hears hp hr =>
    rw [hended]
    exact .hears hs hp hr
  | expires hp hr => exact .expires hs hp hr
  | givesUp hp =>
    rw [hended, Instance.traffic_markDegraded, Instance.traffic_notify]
    exact .forgets hs (.inr hp)

/-- The beginning of a request is a turn, unless the backend is not alive. -/
theorem turn_of_begin {j : Instance} {x : Exchange} {method : String} {params : Option Json}
    (ht : j.traffic = s.client.traffic) (hl : j.lifecycle = s.client.lifecycle)
    (h : Exchange.start j method params = (i, .ok x)) :
    s.Turn e {} i.traffic (x ::ₘ s.exchanges) := by
  obtain ⟨hn, hr, rfl, rfl⟩ := Exchange.start_ok h
  rw [hl] at hn hr
  have hid : j.nextId = s.client.nextId := congrArg Traffic.nextId ht
  have hx : ({ j with nextId := j.nextId + 1 } : Instance).traffic =
      { s.client.traffic with nextId := s.client.nextId + 1 } := by
    rw [← ht, ← hid]
    rfl
  rw [hx]
  exact .begins hn hr hid rfl

theorem turn_of_starts {x : Start} {t : Task Start (Except Fault Unit)} (hw : s.Wired)
    (hx : s.start = .running x) (h : x.Goes s.now s.client i t) :
    s.Turn e {} i.traffic ({ s with client := i, start := t } : Scene).exchanges := by
  obtain ⟨rest, hs, hset⟩ := s.exists_exchanges_start
  rw [hset]
  rw [hx] at hs
  -- A start makes one request, and is at it during the handshake only.
  have hnone : ∀ {p : Start.Phase}, x.phase = p → (∀ y, p ≠ .handshake y) →
      s.exchanges = rest := by
    intro p hp hne
    rw [hs]
    cases p with
    | handshake y => exact absurd rfl (hne y)
    | begin | attach | record | confirm | announce | complete =>
      simp [Task.rest?, Start.exchange?, hp]
  have hsome : ∀ {y}, x.phase = .handshake y → s.exchanges = y ::ₘ rest := by
    intro y hp
    rw [hs]
    simp [Task.rest?, Start.exchange?, hp]
  cases h with
  | begins hp =>
    have hr := hnone hp (by simp)
    simp only [Task.rest?, Start.exchange?, Option.bind_some, atMost_none, zero_add, ← hr]
    exact .stays
  | attaches hp hx' =>
    have hr := hnone hp (by simp)
    simp only [Task.rest?, Start.exchange?, Option.bind_some, atMost_some,
      Multiset.singleton_add, ← hr]
    exact turn_of_begin (Instance.traffic_attached (hw.unattached x hx (.inr hp)) x)
      (Start.lifecycle_attached _ _) hx'
  | attachesInVain hp _ =>
    have hr := hnone hp (by simp)
    simp only [Task.rest?, Option.bind_none, atMost_none, zero_add, ← hr]
    rw [Instance.traffic_attached (hw.unattached x hx (.inr hp))]
    exact .stays
  | goesOn hp hy => exact turn_of_exchange hw.linked (hsome hp) hy
  | hearsInVain hp hy =>
    have hturn := turn_of_exchange (e := e) hw.linked (hsome hp) hy
    exact hturn
  | hears hp hy _ =>
    have hturn := turn_of_exchange (e := e) hw.linked (hsome hp) hy
    exact hturn
  | keeps hp | confirms hp | completes hp =>
    have hr := hnone hp (by simp)
    simp only [Task.rest?, Start.exchange?, Option.bind_some, Option.bind_none, atMost_none,
      zero_add, ← hr]
    exact .stays
  | announces hp | announcesInVain hp =>
    have hr := hnone hp (by simp)
    simp only [Task.rest?, Start.exchange?, Option.bind_some, Option.bind_none, atMost_none,
      zero_add, ← hr]
    rw [Instance.traffic_notify]
    exact .stays
  | comesLate hp =>
    have hr : s.exchanges = rest := by rcases hp with hp | hp <;> exact hnone hp (by simp)
    simp only [Task.rest?, Option.bind_none, atMost_none, zero_add, ← hr]
    exact .stays

theorem turn_of_shutsDown {n : Nat} {exited : Nat → Bool} {x : Shutdown} {t : Task Shutdown Unit}
    (hl : s.client.Linked) (hn : s.shutdowns[n]? = some (.running x))
    (h : x.Goes s.now s.client i t) :
    s.Turn (.shutdown n exited) (s.mail (.shutdown n exited)) i.traffic
      ({ s with client := i, shutdowns := s.shutdowns.set n t } : Scene).exchanges := by
  obtain ⟨rest, hs, hset⟩ := exists_exchanges_shutdown hn
  rw [hset]
  have hmail : x ≠ .failing → s.mail (.shutdown n exited) = {} := by
    intro hne
    simp only [mail, hn]
    split
    · rename_i heq
      cases heq
      exact absurd rfl hne
    · rfl
  have hask : ∀ {y : Exchange} {d : Time}, x = .asking y d → s.exchanges = y ::ₘ rest := by
    rintro y d rfl
    exact hs
  cases h with
  | leaves =>
    rw [hmail (by simp)]
    exact hs ▸ .stays
  | asks hx =>
    rw [hmail (by simp)]
    have hr : s.exchanges = rest := hs.trans (zero_add _)
    exact hr ▸ turn_of_begin rfl rfl hx
  | @closes y hy =>
    rw [hmail (by simp), Instance.traffic_shut]
    cases y with
    | begin | asking => cases hy
    | draining | reaping | exiting | failing => exact hs ▸ .stays
  | goesOn hx =>
    rw [hmail (by simp)]
    exact turn_of_exchange hl (hask rfl) hx
  | @closesAnswered _ _ _ j k y hx hk hy =>
    have hturn := turn_of_exchange (e := .shutdown n exited) hl (hask rfl) hx
    have hk' : k.traffic = j.traffic := by
      rcases hk with rfl | rfl
      · rfl
      · exact Instance.traffic_notify j "exit" none
    rw [hmail (by simp), Instance.traffic_shut, hk']
    cases y with
    | begin | asking => cases hy
    | draining | reaping | exiting | failing => exact hturn
  | @closesLate _ _ y hy =>
    rw [hmail (by simp), Instance.traffic_shut]
    cases y with
    | begin | asking => cases hy
    | draining | reaping | exiting | failing => exact (zero_add rest).symm ▸ .drops (hask rfl)
  | @drains _ y p hx hf hy =>
    rw [hmail hf]
    cases x with
    | begin | asking => cases hx
    | draining | reaping | exiting | failing =>
      cases y with
      | begin | asking => cases hy
      | draining | reaping | exiting | failing => exact hs ▸ .stays
  | fails =>
    have hm : s.mail (.shutdown n exited) = { failed := s.client.failures Instance.stopError } := by
      simp [mail, hn]
    rw [hm]
    change s.Turn _ _ (s.client.failPending Instance.stopError).traffic _
    rw [Instance.traffic_failPending]
    exact hs ▸ .fails (.inr ⟨rfl, List.mem_of_getElem? hn⟩) (.inl rfl)

theorem reader_of_link {l : Link} (hl : s.client.link? 0 = some l) :
    s.client.reader = l.reader := by
  rw [Instance.reader, hl]
  rfl

theorem turn_of_receives {m : Wire.Message} {l : Link} (hl : s.client.link? 0 = some l)
    (hr : l.reader = .idle) :
    s.Turn e (s.mail (.receive m)) (s.client.receive s.now 0 m).traffic s.exchanges := by
  cases m with
  | request r =>
    rw [Instance.receive, Instance.traffic_send_of_none rfl]
    exact .stays
  | notification n =>
    rw [Instance.receive, Instance.traffic_takeNotification]
    exact .stays
  | response r =>
    rw [Instance.receive]
    split <;> rename_i hid
    · rw [Instance.traffic_setReader hl]
      exact .reads ((reader_of_link hl).trans hr) hid
    · exact .ignores hid

theorem turn_of_delivers {l : Link} {id : Wire.Id} {r : Wire.Response}
    (hl : s.client.link? 0 = some l) (hr : l.reader = .delivering id r) :
    s.Turn e (s.mail .read) (s.client.readerStep 0 (.delivering id r)).traffic s.exchanges := by
  have hh : s.client.reader = .delivering id r := (reader_of_link hl).trans hr
  have hmail : s.mail .read = s.client.readerMail (.delivering id r) := by
    rw [mail, hl, Option.elim_some, hr]
  rw [hmail, Instance.readerMail, Instance.readerStep]
  cases hn : s.client.pendingFor? id with
  | none =>
    have hd : s.client.deliver id r = s.client := by simp [Instance.deliver, hn]
    rw [hd, Instance.traffic_setReader hl]
    exact .discards hh hn
  | some n =>
    have hd : s.client.deliver id r =
        { s.client with
          pending := s.client.pending.erase n
          answers := s.client.answers ++ [(n, r)] } := by
      simp [Instance.deliver, hn]
    have hl' : (s.client.deliver id r).link? 0 = some l := by rw [hd]; exact hl
    rw [Instance.traffic_setReader hl', hd]
    exact .hands hh hn

theorem turn_of_abandons {l : Link} (hl : s.client.link? 0 = some l) (hr : l.reader = .losing) :
    s.Turn e (s.mail .read) (s.client.readerStep 0 .losing).traffic s.exchanges := by
  have hmail : s.mail .read = s.client.readerMail .losing := by
    rw [mail, hl, Option.elim_some, hr]
  have hl' : (s.client.abandon "Backend terminated unexpectedly").link? 0 = some l := hl
  rw [hmail, Instance.readerMail, Instance.readerStep, Instance.traffic_setReader hl',
    Instance.traffic_abandon]
  exact .fails (.inl ⟨_, rfl⟩) (.inr ⟨(reader_of_link hl).trans hr, rfl⟩)

theorem turn_of_loses {l : Link} (hl : s.client.link? 0 = some l) (hr : l.reader = .idle) :
    s.Turn .lose {} (s.client.loseStream 0).traffic s.exchanges := by
  have hh : s.client.reader = .idle := (reader_of_link hl).trans hr
  have hl' : s.client.markDegraded.link? 0 = some l :=
    (Instance.link?_markDegraded s.client 0).trans hl
  unfold Instance.loseStream
  split_ifs
  · rw [Instance.traffic_setReader hl]
    exact .loses rfl hh (.inr rfl)
  · rw [Instance.traffic_setReader hl', Instance.traffic_markDegraded]
    exact .loses rfl hh (.inl rfl)

theorem traffic_failWriter (i : Instance) : (i.failWriter 0).traffic = i.traffic := by
  unfold Instance.failWriter
  split_ifs
  · exact Instance.traffic_setWriter i 0 _
  · exact (Instance.traffic_setWriter _ 0 _).trans (Instance.traffic_markDegraded i)

/-- What requests do. -/
theorem turn_of_request {n : Nat} {x : Exchange} {t : Task Exchange Answer}
    (hl : s.client.Linked) (hn : s.requests[n]? = some (.running x))
    (h : x.Goes s.now s.client i t) :
    s.Turn e {} i.traffic
      ({ s with client := i, requests := s.requests.set n t } : Scene).exchanges := by
  obtain ⟨rest, hs, hset⟩ := exists_exchanges_request hn
  rw [hset]
  exact turn_of_exchange hl hs h

/-- **Turns.** Every event is a turn. -/
theorem turn_of_act (hw : s.Wired) (ha : s.act e = some s') :
    s.Turn e (s.mail e) s'.client.traffic s'.exchanges := by
  have hsame : ∀ {i : Instance}, i.traffic = s.client.traffic →
      s.Turn e {} i.traffic s.exchanges := by
    intro i hi
    rw [hi]
    exact .stays
  cases happens_of_act ha with
  | elapses | drops | waits | looks | turnsAway => exact .stays
  | stops =>
    have hx : ({ s with shutdowns := s.shutdowns ++ [.running .begin] } : Scene).exchanges =
        s.exchanges := by
      rw [exchanges, exchanges, List.filterMap_append]
      exact congrArg (fun xs : List Exchange => _ + (xs : Multiset Exchange) + _)
        (List.append_nil _)
    rw [hx]
    exact .stays
  | opens h | opensInVain h =>
    exact hsame ((congrArg (·.1.traffic) h).symm.trans (Instance.traffic_openDocument ..))
  | closes h =>
    exact hsame ((congrArg (·.1.traffic) h).symm.trans (Instance.traffic_closeDocument ..))
  | starts hx h => exact turn_of_starts hw hx (Start.goes_of_becomes h)
  | asks h =>
    rw [exchanges_append_request]
    exact turn_of_begin rfl rfl h
  | asksInVain h =>
    rw [exchanges_append_request, Exchange.start_error h]
    exact (zero_add s.exchanges).symm ▸ .stays
  | exchanges hn h => exact turn_of_request hw.linked hn (Exchange.goes_of_becomes h)
  | cancels hn =>
    obtain ⟨rest, hs, hset⟩ := exists_exchanges_request hn
    rw [hset s.client]
    exact (zero_add rest).symm ▸ .drops hs
  | shutsDown hn h => exact turn_of_shutsDown hw.linked hn (Shutdown.goes_of_becomes h)
  | @leaves n x hn =>
    obtain ⟨rest, hs, hset⟩ := exists_exchanges_shutdown hn
    rw [hset s.client]
    cases x with
    | asking x deadline => exact (zero_add rest).symm ▸ .drops hs
    | begin | draining | reaping | exiting | failing => exact hs ▸ .stays
  | receives hl hr => exact turn_of_receives hl hr
  | loses hl hr => exact turn_of_loses hl hr
  | delivers hl hr => exact turn_of_delivers hl hr
  | abandons hl hr => exact turn_of_abandons hl hr
  | takes => exact hsame (Instance.traffic_takeFrame s.client 0 _)
  | writes | finishes => exact hsame (Instance.traffic_setWriter s.client 0 _)
  | fails => exact hsame (traffic_failWriter s.client)
  | failsFrames =>
    rw [Instance.failFrames, Instance.traffic_setWriter, Instance.traffic_abandon]
    exact .fails (.inl ⟨_, rfl⟩) (.inl rfl)

end DiagnosticBroker.Scene
