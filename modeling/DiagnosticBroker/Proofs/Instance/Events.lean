import DiagnosticBroker.Proofs.Instance.Termination

/-!
# What can happen

`Scene.act` tells what an event does, and the steps of requests, shutdowns and starts tell how these
go on. `Happens` and `Goes` turn this around: if an event or a step can happen, then this is what it
found and what it left. Everything that is proved about single events starts from here.

Results:
* `Exchange.goes_of_becomes`, `Shutdown.goes_of_becomes`, `Start.goes_of_becomes`: what one step of
  a request, a shutdown or a start comes to.
* `happens_of_act`: an event that can happen is one of those that `Happens` lists.
* `endures_act`: whatever happens beside a start leaves a stopped instance stopped.
-/

namespace DiagnosticBroker

/-! ## Steps of operations -/

namespace Instance

variable {now : Time} {i j : Instance}

/-- What a step of a request comes to. -/
inductive Exchange.Goes (now : Time) (i : Instance) (x : Exchange) :
    Instance → Task Exchange Answer → Prop where
  | queues {deadline : Time} (hp : x.phase = .register) (hs : i.canSend = true) :
      Goes now i x
        ({ i with pending := i.pending ++ [x.id] }.send (.request (.new x.id x.method x.params))).1
        (.running { x with phase := .waiting deadline })
  /-- The request is registered, but cannot be queued. -/
  | misses {f : Fault} (hp : x.phase = .register) (hs : i.canSend = false)
      (hf : f = .notConnected ∨ f = i.gone) :
      Goes now i x
        ({ i with pending := i.pending ++ [x.id] }.send (.request (.new x.id x.method x.params))).1
        (.running { x with phase := .unregister f })
  | unregisters {f : Fault} (hp : x.phase = .unregister f) :
      Goes now i x (forget i x.id) (.ended (.error f))
  | hears {deadline : Time} {r : Wire.Response} (hp : x.phase = .waiting deadline)
      (hr : i.answers.lookup x.id = some r) :
      Goes now i x { i with answers := i.answers.filter fun e => e.1 ≠ x.id }
        (.ended (resultOf i r))
  | expires {deadline : Time} (hp : x.phase = .waiting deadline)
      (hr : i.answers.lookup x.id = none) (hd : deadline ≤ now) :
      Goes now i x i (.running { x with phase := .giveUp })
  | givesUp (hp : x.phase = .giveUp) :
      Goes now i x
        ((forget i x.id).notify "$/cancelRequest" (some (.obj [("id", .nat x.id)]))).1.markDegraded
        (.ended (.error (timedOut i x.method)))

namespace Exchange

variable {x : Exchange} {t : Task Exchange Answer}

/-- Queuing a frame succeeds if frames can be queued, and fails if not. -/
theorem send_cases (i : Instance) (m : Wire.Message) :
    (i.canSend = true ∧ (i.send m).2 = .ok ()) ∨
      (i.canSend = false ∧ ∃ f, (f = .notConnected ∨ f = i.gone) ∧ (i.send m).2 = .error f) := by
  cases h : i.canSend with
  | true =>
    obtain ⟨n, -, hs⟩ := send_of_canSend h m
    exact .inl ⟨rfl, by rw [hs]⟩
  | false =>
    rcases send_of_not_canSend h m with hs | hs
    · exact .inr ⟨rfl, _, .inl rfl, by rw [hs]⟩
    · exact .inr ⟨rfl, _, .inr rfl, by rw [hs]⟩

theorem timedOut_congr (h : j.backend = i.backend) (method : String) :
    timedOut j method = timedOut i method := by
  rw [timedOut, timedOut, commandText, commandText, h]

theorem goes_of_becomes (h : (x.step now i).Becomes j t) : x.Goes now i j t := by
  unfold step at h
  cases hp : x.phase with
  | register =>
    simp only [hp] at h
    have hsend : ({ i with pending := i.pending ++ [x.id] } : Instance).canSend = i.canSend :=
      canSend_congr rfl rfl
    obtain ⟨hc, hr⟩ | ⟨hc, f, hf, hr⟩ := send_cases { i with pending := i.pending ++ [x.id] }
        (.request (.new x.id x.method x.params))
    · rw [hr] at h
      cases h
      exact .queues hp (hsend ▸ hc)
    · rw [hr] at h
      cases h
      exact .misses hp (hsend ▸ hc) hf
  | unregister f =>
    simp only [hp] at h
    cases h
    exact .unregisters hp
  | waiting deadline =>
    simp only [hp] at h
    split at h
    · rename_i r hr
      cases h
      exact .hears hp hr
    · rename_i hr
      split_ifs at h with hd
      · cases h
        exact .expires hp hr hd
      · cases h
  | giveUp =>
    simp only [hp] at h
    have hb : ((forget i x.id).notify "$/cancelRequest"
        (some (.obj [("id", .nat x.id)]))).1.backend = i.backend :=
      (wanes_send (forget i x.id) _).backend
    rw [timedOut_congr hb] at h
    cases h
    exact .givesUp hp

/-- A request that has an answer ends with its next step. -/
theorem done_of_answered {deadline : Time} {r : Wire.Response} (hp : x.phase = .waiting deadline)
    (hr : i.answers.lookup x.id = some r) : ∃ j, x.step now i = .done j (resultOf i r) := by
  simp only [step, hp, hr]
  exact ⟨_, rfl⟩

/-- Only a request without an answer is kept waiting. -/
theorem isBlocked_of_answered (h : ∀ deadline, x.phase = .waiting deadline →
    ∃ r, i.answers.lookup x.id = some r) : (x.step now i).isBlocked = false := by
  cases hp : x.phase with
  | register =>
    simp only [step, hp]
    split <;> rfl
  | unregister f | giveUp =>
    simp only [step, hp]
    rfl
  | waiting deadline =>
    obtain ⟨r, hr⟩ := h deadline hp
    obtain ⟨j, hd⟩ := done_of_answered hp hr
    rw [hd]
    rfl

/-- A backend that is not alive is given no request, and one that is alive gets it. -/
theorem start_cases (i : Instance) (method : String) (params : Option Json) :
    (i.lifecycle = .notStarted ∧ start i method params = (i, .error .notConnected)) ∨
      (4 ≤ i.lifecycle.rank ∧ start i method params = (i, .error i.gone)) ∨
      (i.lifecycle ≠ .notStarted ∧ i.lifecycle.rank < 4 ∧ start i method params =
        ({ i with nextId := i.nextId + 1 },
          .ok { id := i.nextId, method := method, params := params })) := by
  unfold start
  cases i.lifecycle with
  | notStarted => exact .inl ⟨rfl, rfl⟩
  | degraded | terminated => exact .inr (.inl ⟨by decide, rfl⟩)
  | starting | initialized | ready => exact .inr (.inr ⟨by decide, by decide, rfl⟩)

theorem start_ok {method : String} {params : Option Json} {x : Exchange}
    (h : start i method params = (j, .ok x)) :
    i.lifecycle ≠ .notStarted ∧ i.lifecycle.rank < 4 ∧ j = { i with nextId := i.nextId + 1 } ∧
      x = { id := i.nextId, method := method, params := params } := by
  obtain ⟨-, hs⟩ | ⟨-, hs⟩ | ⟨hn, hr, hs⟩ := start_cases i method params <;>
    cases hs.symm.trans h
  exact ⟨hn, hr, rfl, rfl⟩

theorem start_error {method : String} {params : Option Json} {f : Fault}
    (h : start i method params = (j, .error f)) : j = i := by
  obtain ⟨-, hs⟩ | ⟨-, hs⟩ | ⟨-, -, hs⟩ := start_cases i method params
  · rw [hs] at h
    cases h
    rfl
  · rw [hs] at h
    cases h
    rfl
  · rw [hs] at h
    cases h

end Exchange

/-! ## Shutdowns -/

/-- The instance with its input closed. -/
def shut (i : Instance) : Instance :=
  { ({ i with lifecycle := .terminated } : Instance).hangUp with writer := none }

/-- What a step of a shutdown comes to. -/
inductive Shutdown.Goes (now : Time) (i : Instance) :
    Shutdown → Instance → Task Shutdown Unit → Prop where
  /-- Somebody else has stopped the backend. -/
  | leaves (ht : i.lifecycle = .terminated) : Goes now i .begin i (.ended ())
  | asks {x : Exchange} {deadline : Time} {j : Instance}
      (h : Exchange.start i "shutdown" none = (j, .ok x)) :
      Goes now i .begin j (.running (.asking x deadline))
  | closes {y : Shutdown} (hy : y.hasClosed = true) :
      Goes now i .begin i.shut (.running y)
  | goesOn {x x' : Exchange} {deadline : Time} {j : Instance}
      (h : x.Goes now i j (.running x')) :
      Goes now i (.asking x deadline) j (.running (.asking x' deadline))
  | closesAnswered {x : Exchange} {deadline : Time} {a : Answer} {j k : Instance} {y : Shutdown}
      (h : x.Goes now i j (.ended a)) (hk : k = j ∨ k = (j.notify "exit" none).1)
      (hy : y.hasClosed = true) : Goes now i (.asking x deadline) k.shut (.running y)
  | closesLate {x : Exchange} {deadline : Time} {y : Shutdown} (hy : y.hasClosed = true) :
      Goes now i (.asking x deadline) i.shut (.running y)
  | drains {s y : Shutdown} (p : Option Nat) (hs : s.hasClosed = true)
      (hf : s ≠ .failing) (hy : y.hasClosed = true) :
      Goes now i s { i with process := p } (.running y)
  | fails :
      Goes now i .failing
        { i.failPending (.new Fault.cancelledCode "Backend shutdown") with
          collector := i.collector.disconnect } (.ended ())

namespace Shutdown

theorem close_eq (now : Time) (i : Instance) :
    ∃ y : Shutdown, y.hasClosed = true ∧ close now i = .next i.shut y := by
  unfold close shut
  simp only
  split
  · exact ⟨.draining _ _, rfl, rfl⟩
  · rename_i hw
    refine ⟨.reaping, rfl, ?_⟩
    rw [← hw]

theorem goes_of_becomes {s : Shutdown} {t : Task Shutdown Unit} {exited : Nat → Bool}
    (h : (s.step exited now i).Becomes j t) : s.Goes now i j t := by
  cases s with
  | begin =>
    obtain ⟨y, hy, hclose⟩ := close_eq now i
    rw [step] at h
    split_ifs at h with ht
    · cases h
      exact .leaves ht
    · split at h <;> rename_i heq
      · cases h
        exact .asks heq
      · rw [Exchange.start_error heq, hclose] at h
        cases h
        exact .closes hy
    · rw [hclose] at h
      cases h
      exact .closes hy
  | asking x deadline =>
    rcases h.of_orAt with h | h
    · obtain ⟨x', hx, rfl⟩ | ⟨k, a, hx, h⟩ := h.of_within
      · exact .goesOn (Exchange.goes_of_becomes hx)
      · have hx := Exchange.goes_of_becomes hx
        cases a with
        | error f =>
          obtain ⟨y, hy, hclose⟩ := close_eq now k
          rw [answered, hclose] at h
          cases h
          exact .closesAnswered hx (.inl rfl) hy
        | ok v =>
          obtain ⟨y, hy, hclose⟩ := close_eq now (k.notify "exit" none).1
          rw [answered, hclose] at h
          cases h
          exact .closesAnswered hx (.inr rfl) hy
    · obtain ⟨y, hy, hclose⟩ := close_eq now i
      rw [hclose] at h
      cases h
      exact .closesLate hy
  | draining n deadline =>
    rw [step] at h
    split_ifs at h
    · cases h
      exact .drains i.process rfl (by simp) rfl
    · cases h
  | reaping =>
    rw [step] at h
    split at h <;> cases h
    · exact .drains none rfl (by simp) rfl
    · exact .drains i.process rfl (by simp) rfl
  | exiting p deadline =>
    rw [step] at h
    split_ifs at h
    · cases h
      exact .drains i.process rfl (by simp) rfl
    · cases h
  | failing =>
    rw [step] at h
    cases h
    exact .fails

end Shutdown

/-! ## Starts -/

/-- The instance with its new link, before the first request. -/
def Start.attached (i : Instance) (s : Start) : Instance :=
  { i with process := if s.isProcess then some s.launch else none }.connect s.launch

/-- What a step of a start comes to. -/
inductive Start.Goes (now : Time) (i : Instance) (s : Start) :
    Instance → Task Start (Except Fault Unit) → Prop where
  | begins (hp : s.phase = .begin) :
      Goes now i s { i with lifecycle := .starting } (.running { s with phase := .attach })
  | attaches {x : Exchange} {j : Instance} (hp : s.phase = .attach)
      (h : Exchange.start (attached i s) "initialize"
        (some ((attached i s).introduction s.clientProcess).encode.canonical) = (j, .ok x)) :
      Goes now i s j (.running { s with phase := .handshake x })
  | attachesInVain {f : Fault} (hp : s.phase = .attach) (hl : 4 ≤ i.lifecycle.rank ∨
      i.lifecycle = .notStarted) : Goes now i s (attached i s) (.ended (.error f))
  | goesOn {x x' : Exchange} {j : Instance} (hp : s.phase = .handshake x)
      (h : x.Goes now i j (.running x')) :
      Goes now i s j (.running { s with phase := .handshake x' })
  | hearsInVain {x : Exchange} {a : Answer} {f : Fault} {j : Instance} (hp : s.phase = .handshake x)
      (h : x.Goes now i j (.ended a)) : Goes now i s j (.ended (.error f))
  | hears {x : Exchange} {v : Json} {r : Wire.InitializeResult} {j : Instance}
      (hp : s.phase = .handshake x) (h : x.Goes now i j (.ended (.ok v)))
      (hv : Wire.InitializeResult.decode v = .ok r) :
      Goes now i s j (.running { s with phase := .record r })
  | keeps {r : Wire.InitializeResult} (hp : s.phase = .record r) :
      Goes now i s { i with capabilities := some r } (.running { s with phase := .confirm })
  | confirms (hp : s.phase = .confirm) (hl : i.lifecycle = .starting) :
      Goes now i s { i with lifecycle := .initialized } (.running { s with phase := .announce })
  | announces (hp : s.phase = .announce)
      (h : (i.notify "initialized" (some (.obj []))).2 = .ok ()) :
      Goes now i s (i.notify "initialized" (some (.obj []))).1
        (.running { s with phase := .complete })
  | announcesInVain {f : Fault} (hp : s.phase = .announce)
      (h : (i.notify "initialized" (some (.obj []))).2 = .error f) :
      Goes now i s (i.notify "initialized" (some (.obj []))).1 (.ended (.error f))
  | completes (hp : s.phase = .complete) (hl : i.lifecycle = .initialized) :
      Goes now i s { i with lifecycle := .ready } (.ended (.ok ()))
  /-- Something else has moved the instance on. -/
  | comesLate {f : Fault} (hp : s.phase = .confirm ∨ s.phase = .complete) :
      Goes now i s i (.ended (.error f))

namespace Start

theorem lifecycle_attached (i : Instance) (s : Start) :
    (attached i s).lifecycle = i.lifecycle := by
  unfold attached connect
  cases i.outgoing <;> rfl

theorem goes_of_becomes {s : Start} {t : Task Start (Except Fault Unit)}
    (h : (s.step now i).Becomes j t) : s.Goes now i j t := by
  unfold step at h
  cases hp : s.phase with
  | begin =>
    simp only [hp] at h
    cases h
    exact .begins hp
  | attach =>
    simp only [hp] at h
    cases hx : Exchange.start (attached i s) "initialize"
        (some ((attached i s).introduction s.clientProcess).encode.canonical) with
    | mk k r =>
      have hx' := hx
      rw [attached] at hx'
      simp only [attach, hx'] at h
      cases r with
      | ok x =>
        cases h
        exact .attaches hp hx
      | error f =>
        cases h
        rw [Exchange.start_error hx]
        refine .attachesInVain hp ?_
        have hl := lifecycle_attached i s
        obtain ⟨hn, -⟩ | ⟨hr, -⟩ | ⟨-, -, hs⟩ := Exchange.start_cases (attached i s) "initialize"
          (some ((attached i s).introduction s.clientProcess).encode.canonical)
        · exact .inr (hl ▸ hn)
        · exact .inl (hl ▸ hr)
        · cases hs.symm.trans hx
  | handshake x =>
    simp only [hp] at h
    obtain ⟨x', hx, rfl⟩ | ⟨k, a, hx, h⟩ := h.of_within
    · exact .goesOn hp (Exchange.goes_of_becomes hx)
    · have hx := Exchange.goes_of_becomes hx
      cases a with
      | error f =>
        cases h
        exact .hearsInVain hp hx
      | ok v =>
        simp only [answered] at h
        split at h <;> rename_i hv <;> cases h
        · exact .hearsInVain hp hx
        · exact .hears hp hx hv
  | record r =>
    simp only [hp] at h
    cases h
    exact .keeps hp
  | confirm =>
    simp only [hp] at h
    split at h <;> rename_i heq <;> cases h
    · obtain ⟨hl, rfl⟩ := eq_of_advance heq
      exact .confirms hp hl
    · exact .comesLate (.inl hp)
  | announce =>
    simp only [hp] at h
    generalize hn : i.notify "initialized" (some (.obj [])) = sent at h
    obtain ⟨k, r⟩ := sent
    have hk : k = (i.notify "initialized" (some (.obj []))).1 := by rw [hn]
    cases r with
    | ok u =>
      cases h
      exact hk ▸ .announces hp (by rw [hn])
    | error f =>
      cases h
      exact hk ▸ .announcesInVain hp (by rw [hn])
  | complete =>
    simp only [hp] at h
    split at h <;> rename_i heq <;> cases h
    · obtain ⟨hl, rfl⟩ := eq_of_advance heq
      exact .completes hp hl
    · exact .comesLate (.inr hp)

end Start

end Instance

/-! ## Events -/

namespace Scene

open Instance (Exchange Shutdown)

/-- What an event found and what it left. -/
inductive Happens (s : Scene) : Event → Scene → Prop where
  | elapses (d : Nat) : Happens s (.elapse d) { s with now := s.now + d }
  | starts {x : Instance.Start} {i : Instance} {t : Task Instance.Start (Except Fault Unit)}
      (hx : s.start = .running x) (h : (x.step s.now s.client).Becomes i t) :
      Happens s .start { s with client := i, start := t }
  | asks {method : String} {params : Option Json} {i : Instance} {x : Exchange}
      (h : Exchange.start s.client method params = (i, .ok x)) :
      Happens s (.ask method params)
        { s with client := i, requests := s.requests ++ [.running x] }
  | asksInVain {method : String} {params : Option Json} {i : Instance} {f : Fault}
      (h : Exchange.start s.client method params = (i, .error f)) :
      Happens s (.ask method params)
        { s with client := i, requests := s.requests ++ [.ended (.error f)] }
  | exchanges {n : Nat} {x : Exchange} {i : Instance} {t : Task Exchange Instance.Answer}
      (hn : s.requests[n]? = some (.running x)) (h : (x.step s.now s.client).Becomes i t) :
      Happens s (.exchange n) { s with client := i, requests := s.requests.set n t }
  | cancels {n : Nat} {x : Exchange} (hn : s.requests[n]? = some (.running x)) :
      Happens s (.cancel n) { s with requests := s.requests.set n .abandoned }
  | stops : Happens s .stop { s with shutdowns := s.shutdowns ++ [.running .begin] }
  | shutsDown {n : Nat} {exited : Nat → Bool} {x : Shutdown} {i : Instance}
      {t : Task Shutdown Unit} (hn : s.shutdowns[n]? = some (.running x))
      (h : (x.step exited s.now s.client).Becomes i t) :
      Happens s (.shutdown n exited) { s with client := i, shutdowns := s.shutdowns.set n t }
  | leaves {n : Nat} {x : Shutdown} (hn : s.shutdowns[n]? = some (.running x)) :
      Happens s (.leave n) { s with shutdowns := s.shutdowns.set n .abandoned }
  | opens {uri languageId text : String} {i : Instance} {version : Int} {waiter : Waiter}
      (h : s.client.openDocument s.now uri languageId text = (i, .ok (version, waiter))) :
      Happens s (.opens uri languageId text) { s with
        client := i
        holders := s.holders ++
          [⟨waiter, (s.client.announcements uri).length, s.client.isLost, .idle⟩]
        calls := s.calls ++ [.opened uri version] }
  | opensInVain {uri languageId text : String} {i : Instance} {f : Fault}
      (h : s.client.openDocument s.now uri languageId text = (i, .error f)) :
      Happens s (.opens uri languageId text) { s with client := i }
  | closes {uri : String} {i : Instance} {told : Bool}
      (h : s.client.closeDocument uri = (i, told)) :
      Happens s (.closes uri) { s with client := i, calls := s.calls ++ [.closed uri told] }
  | drops {n : Nat} {h : Holder} (hn : s.holders[n]? = some h) (hl : h.isLive = true) :
      Happens s (.drop n)
        ({ s with client := s.client.releaseWaiter h.waiter }.setHolder n h .dropped)
  | waits {n : Nat} {timeout settle : Duration} {h : Holder} (hn : s.holders[n]? = some h)
      (hp : h.phase = .idle) :
      Happens s (.wait n timeout settle)
        (s.setHolder n h (.waiting ⟨h.waiter, timeout, settle, .begin⟩))
  | looks {n : Nat} {h : Holder} {w : Wait} {p : Holder.Phase} (hn : s.holders[n]? = some h)
      (hp : h.phase = .waiting w) (hl : s.look w = some p) :
      Happens s (.look n) (s.setHolder n h p)
  | turnsAway {n : Nat} {h : Holder} {w : Wait} (hn : s.holders[n]? = some h)
      (hp : h.phase = .waiting w) : Happens s (.turnAway n) (s.setHolder n h .idle)
  | receives {m : Wire.Message} {l : Link} (hl : s.client.link? 0 = some l)
      (hr : l.reader = .idle) :
      Happens s (.receive m) { s with client := s.client.receive s.now 0 m }
  | loses {l : Link} (hl : s.client.link? 0 = some l) (hr : l.reader = .idle) :
      Happens s .lose { s with client := s.client.loseStream 0 }
  | delivers {l : Link} {id : Wire.Id} {r : Wire.Response} (hl : s.client.link? 0 = some l)
      (hr : l.reader = .delivering id r) :
      Happens s .read { s with client := s.client.readerStep 0 (.delivering id r) }
  | abandons {l : Link} (hl : s.client.link? 0 = some l) (hr : l.reader = .losing) :
      Happens s .read { s with client := s.client.readerStep 0 .losing }
  | takes {l : Link} {m : Wire.Message} (hl : s.client.link? 0 = some l)
      (hw : l.writer = .idle) : Happens s .take { s with client := s.client.takeFrame 0 m }
  | writes {l : Link} {m : Wire.Message} {size : Nat} (hl : s.client.link? 0 = some l)
      (hw : l.writer = .frame m size) :
      Happens s .written { s with client := s.client.setWriter 0 .idle }
  | fails {l : Link} {m : Wire.Message} {size : Nat} (hl : s.client.link? 0 = some l)
      (hw : l.writer = .frame m size) : Happens s .fail { s with client := s.client.failWriter 0 }
  | failsFrames {l : Link} (hl : s.client.link? 0 = some l) (hw : l.writer = .failing) :
      Happens s .failFrames { s with client := s.client.failFrames 0 }
  | finishes {l : Link} (hl : s.client.link? 0 = some l) (hw : l.writer = .idle)
      (hs : l.sealed = true) : Happens s .finish { s with client := s.client.setWriter 0 .ended }

variable {s s' : Scene} {e : Event}

/-- What the reader and the writer of the link do. -/
theorem happens_of_link (ha : s.act e = some s')
    (he : (∃ m, e = .receive m) ∨ e = .lose ∨ e = .read ∨ e = .take ∨ e = .written ∨ e = .fail ∨
      e = .failFrames ∨ e = .finish) : s.Happens e s' := by
  rcases he with ⟨m, rfl⟩ | rfl | rfl | rfl | rfl | rfl | rfl | rfl <;>
    obtain ⟨l, i, hl, hf, rfl⟩ := eq_of_onLink ha
  · split at hf <;> rename_i hr <;> cases hf
    exact .receives hl hr
  · split at hf <;> rename_i hr <;> cases hf
    exact .loses hl hr
  · split at hf
    · rename_i hr
      cases hf
      exact .delivers hl hr
    · rename_i hr
      cases hf
      exact .abandons hl hr
    · cases hf
  · split at hf <;> rename_i hw
    · obtain ⟨m, -, rfl⟩ := Option.map_eq_some_iff.mp hf
      exact .takes hl hw
    · cases hf
  · split at hf <;> rename_i hw <;> cases hf
    exact .writes hl hw
  · split at hf <;> rename_i hw <;> cases hf
    exact .fails hl hw
  · split at hf <;> rename_i hw <;> cases hf
    exact .failsFrames hl hw
  · split at hf
    · rename_i hw _
      split_ifs at hf with hs
      cases hf
      exact .finishes hl hw hs
    · cases hf

/-- What requests, shutdowns and the start do. -/
theorem happens_of_task (ha : s.act e = some s')
    (he : e = .start ∨ (∃ m p, e = .ask m p) ∨ (∃ n, e = .exchange n) ∨ (∃ n, e = .cancel n) ∨
      (∃ n x, e = .shutdown n x) ∨ ∃ n, e = .leave n) : s.Happens e s' := by
  rcases he with rfl | ⟨m, p, rfl⟩ | ⟨n, rfl⟩ | ⟨n, rfl⟩ | ⟨n, x, rfl⟩ | ⟨n, rfl⟩
  · obtain ⟨⟨i, t⟩, hi, rfl⟩ := Option.map_eq_some_iff.mp ha
    obtain ⟨x, hx, h⟩ := Task.becomes_of_advance hi
    exact .starts hx h
  · simp only [act] at ha
    split at ha <;> rename_i heq <;> cases ha
    · exact .asks heq
    · exact .asksInVain heq
  · simp only [act, Option.bind_eq_bind, Option.bind_eq_some_iff] at ha
    obtain ⟨t, hn, ⟨i, t'⟩, hi, hs⟩ := ha
    cases hs
    obtain ⟨x, rfl, h⟩ := Task.becomes_of_advance hi
    exact .exchanges hn h
  · simp only [act] at ha
    split at ha <;> rename_i hn <;> cases ha
    exact .cancels hn
  · simp only [act, Option.bind_eq_bind, Option.bind_eq_some_iff] at ha
    obtain ⟨t, hn, ⟨i, t'⟩, hi, hs⟩ := ha
    cases hs
    obtain ⟨x, rfl, h⟩ := Task.becomes_of_advance hi
    exact .shutsDown hn h
  · simp only [act] at ha
    split at ha <;> rename_i hn <;> cases ha
    exact .leaves hn

/-- What the holders of waiters do. -/
theorem happens_of_holder (ha : s.act e = some s')
    (he : (∃ n, e = .drop n) ∨ (∃ n t q, e = .wait n t q) ∨ (∃ n, e = .look n) ∨
      ∃ n, e = .turnAway n) : s.Happens e s' := by
  rcases he with ⟨n, rfl⟩ | ⟨n, t, q, rfl⟩ | ⟨n, rfl⟩ | ⟨n, rfl⟩ <;>
    simp only [act, Option.bind_eq_bind, Option.bind_eq_some_iff] at ha <;>
    obtain ⟨h, hn, ha⟩ := ha
  · split_ifs at ha with hl
    cases ha
    exact .drops hn hl
  · split at ha <;> rename_i hp <;> cases ha
    exact .waits hn hp
  · split at ha <;> rename_i hp
    · obtain ⟨p, hl, rfl⟩ := Option.map_eq_some_iff.mp ha
      exact .looks hn hp hl
    · cases ha
  · split at ha <;> rename_i hp <;> cases ha
    exact .turnsAway hn hp

/-- **Events.** An event that can happen finds and leaves what `Happens` says. -/
theorem happens_of_act (ha : s.act e = some s') : s.Happens e s' := by
  cases e with
  | elapse d => cases ha; exact .elapses d
  | stop => cases ha; exact .stops
  | opens uri languageId text =>
    simp only [act] at ha
    split at ha <;> rename_i heq <;> cases ha
    · exact .opens heq
    · exact .opensInVain heq
  | closes uri =>
    simp only [act] at ha
    cases ha
    exact .closes rfl
  | start => exact happens_of_task ha (.inl rfl)
  | ask m p => exact happens_of_task ha (.inr (.inl ⟨m, p, rfl⟩))
  | exchange n => exact happens_of_task ha (.inr (.inr (.inl ⟨n, rfl⟩)))
  | cancel n => exact happens_of_task ha (.inr (.inr (.inr (.inl ⟨n, rfl⟩))))
  | shutdown n x => exact happens_of_task ha (.inr (.inr (.inr (.inr (.inl ⟨n, x, rfl⟩)))))
  | leave n => exact happens_of_task ha (.inr (.inr (.inr (.inr (.inr ⟨n, rfl⟩)))))
  | drop n => exact happens_of_holder ha (.inl ⟨n, rfl⟩)
  | wait n t q => exact happens_of_holder ha (.inr (.inl ⟨n, t, q, rfl⟩))
  | look n => exact happens_of_holder ha (.inr (.inr (.inl ⟨n, rfl⟩)))
  | turnAway n => exact happens_of_holder ha (.inr (.inr (.inr ⟨n, rfl⟩)))
  | receive m => exact happens_of_link ha (.inl ⟨m, rfl⟩)
  | lose => exact happens_of_link ha (.inr (.inl rfl))
  | read => exact happens_of_link ha (.inr (.inr (.inl rfl)))
  | take => exact happens_of_link ha (.inr (.inr (.inr (.inl rfl))))
  | written => exact happens_of_link ha (.inr (.inr (.inr (.inr (.inl rfl)))))
  | fail => exact happens_of_link ha (.inr (.inr (.inr (.inr (.inr (.inl rfl))))))
  | failFrames => exact happens_of_link ha (.inr (.inr (.inr (.inr (.inr (.inr (.inl rfl)))))))
  | finish => exact happens_of_link ha (.inr (.inr (.inr (.inr (.inr (.inr (.inr rfl)))))))

/-- The reader goes on with what it is doing. -/
theorem eq_of_read {l : Link} (hl : s.client.link? 0 = some l) (ha : s.act .read = some s') :
    s' = { s with client := s.client.readerStep 0 l.reader } := by
  cases happens_of_act ha with
  | delivers hl' hr | abandons hl' hr =>
    rw [hl] at hl'
    cases hl'
    rw [hr]

/-! ## What happens beside a start -/

/-- What anything does to the instance that is not its start. -/
inductive Does (s : Scene) (e : Event) : Instance → Prop where
  | keeps : Does s e s.client
  | asks (method : String) (params : Option Json) :
      Does s e (Instance.Exchange.start s.client method params).1
  | exchanges {x : Instance.Exchange} {i : Instance} {t : Task Instance.Exchange Instance.Answer}
      (h : (x.step s.now s.client).Becomes i t) : Does s e i
  | shutsDown {exited : Nat → Bool} {x : Instance.Shutdown} {i : Instance}
      {t : Task Instance.Shutdown Unit} (h : (x.step exited s.now s.client).Becomes i t) : Does s e i
  | opens {uri languageId text : String} (he : e = .opens uri languageId text) :
      Does s e (s.client.openDocument s.now uri languageId text).1
  | closes {uri : String} (he : e = .closes uri) : Does s e (s.client.closeDocument uri).1
  | drops (w : Waiter) : Does s e (s.client.releaseWaiter w)
  | receives (m : Wire.Message) : Does s e (s.client.receive s.now 0 m)
  | loses : Does s e (s.client.loseStream 0)
  | reads (r : Reading) : Does s e (s.client.readerStep 0 r)
  | takes (m : Wire.Message) : Does s e (s.client.takeFrame 0 m)
  | writes (w : Writing) : Does s e (s.client.setWriter 0 w)
  | fails : Does s e (s.client.failWriter 0)
  | failsFrames : Does s e (s.client.failFrames 0)

/-- What is no step of the start, does one of the things that `Does` lists. -/
theorem does_of_act (he : e ≠ .start) (ha : s.act e = some s') : s.Does e s'.client := by
  cases happens_of_act ha with
  | starts => exact absurd rfl he
  | elapses | cancels | stops | leaves | waits | looks | turnsAway => exact .keeps
  | @asks method params _ _ h | @asksInVain method params _ _ h =>
    have hx : s.Does (.ask method params) _ := .asks method params
    rwa [h] at hx
  | exchanges _ h => exact .exchanges h
  | shutsDown _ h => exact .shutsDown h
  | @opens uri languageId text _ _ _ h | @opensInVain uri languageId text _ _ h =>
    have hx : s.Does (.opens uri languageId text) _ := .opens rfl
    rwa [h] at hx
  | @closes uri _ _ h =>
    have hx : s.Does (.closes uri) _ := .closes rfl
    rwa [h] at hx
  | @drops _ h => exact .drops h.waiter
  | @receives m => exact .receives m
  | loses => exact .loses
  | @delivers _ id r => exact .reads (.delivering id r)
  | abandons => exact .reads .losing
  | takes => exact .takes _
  | writes | finishes => exact .writes _
  | fails => exact .fails
  | failsFrames => exact .failsFrames

/-- A start that was given up makes no step. -/
theorem ne_start_of_act (hs : s.start = .abandoned) (ha : s.act e = some s') : e ≠ .start := by
  rintro rfl
  simp [act, hs, Task.advance] at ha

/-- Whatever happens beside a start leaves a stopped instance stopped. -/
theorem endures_act (he : e ≠ .start) (ha : s.act e = some s') :
    s.client.Endures s'.client := by
  have hdoes := does_of_act he ha
  generalize s'.client = i at hdoes ⊢
  cases hdoes with
  | keeps => exact .refl _
  | asks method params => exact (Instance.wanes_beginExchange ..).endures
  | exchanges h => exact ((Instance.wanes_exchange ..).becomes h).endures
  | shutsDown h => exact (Instance.endures_shutdown ..).becomes h
  | opens => exact (Instance.wanes_openDocument ..).endures
  | closes => exact (Instance.wanes_closeDocument ..).endures
  | receives m => exact (Instance.wanes_receive ..).endures
  | loses => exact (Instance.wanes_loseStream ..).endures
  | reads r => exact (Instance.wanes_readerStep ..).endures
  | fails => exact (Instance.wanes_failWriter ..).endures
  | drops | takes | writes | failsFrames => exact .of_eq rfl rfl rfl

/-- Nothing changes what an instance is for. -/
theorem backend_of_act (ha : s.act e = some s') : s'.client.backend = s.client.backend := by
  by_cases he : e = .start
  · subst he
    cases happens_of_act ha with
    | starts _ h => exact (Instance.backend_start ..).becomes h
  · exact (endures_act he ha).backend

theorem gone_of_act (ha : s.act e = some s') : s'.client.gone = s.client.gone := by
  rw [Instance.gone, Instance.commandText, backend_of_act ha]
  rfl

end Scene

end DiagnosticBroker
