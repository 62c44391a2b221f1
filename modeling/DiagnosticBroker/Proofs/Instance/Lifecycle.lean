import DiagnosticBroker.Proofs.Instance.Correspondence
import DiagnosticBroker.Proofs.Instance.Posts

/-!
# The life of an instance

Many things degrade an instance, every shutdown terminates it, and its start takes it from one stage
to the next. `Ages` says how an event changes the lifecycle. If nobody stops the instance before its
start has begun, its life only goes forward, and once it is degraded no request begins any more.

Results:
* `ages_of_act`: what an event does to the lifecycle.
* `rank_le_of_act`: life goes forward with every event.
* `forward_of_traced`: and so it does in every run.
-/

namespace DiagnosticBroker

namespace Instance

variable {now : Time} {i j k : Instance}

/-! ## Requests and shutdowns -/

theorem wanes_of_exchange {x : Exchange} {t : Task Exchange Answer} (h : x.Goes now i j t) :
    Wanes i j := by
  have hregister : Wanes i ({ i with pending := i.pending ++ [x.id] }.send
      (.request (.new x.id x.method x.params))).1 := by
    have hs := wanes_send { i with pending := i.pending ++ [x.id] }
      (.request (.new x.id x.method x.params))
    exact ⟨hs.backend, hs.capabilities, hs.lifecycle⟩
  cases h with
  | queues | misses => exact hregister
  | unregisters | hears | expires => exact .of_eq rfl rfl rfl
  | givesUp =>
    have hf : Wanes i (Exchange.forget i x.id) := .of_eq rfl rfl rfl
    exact (hf.trans (wanes_send _ _)).trans (wanes_markDegraded _)

theorem wanes_of_start {method : String} {params : Option Json} {r : Except Fault Exchange}
    (h : Exchange.start i method params = (j, r)) : Wanes i j := by
  have hw := wanes_beginExchange i method params
  rwa [h] at hw

theorem lifecycle_shut (i : Instance) : i.shut.lifecycle = .terminated :=
  lifecycle_hangUp { i with lifecycle := .terminated }

theorem outgoing_shut (i : Instance) : i.shut.outgoing = none := by
  unfold shut hangUp
  simp only
  split
  · rfl
  · assumption

/-- A shutdown closes the input, or leaves the lifecycle as it is, unless it degrades it. -/
theorem closes_or_wanes {s : Shutdown} {t : Task Shutdown Unit} (h : s.Goes now i j t) :
    Wanes i j ∨ s.hasClosed = false ∧ j.lifecycle = .terminated ∧ j.outgoing = none ∧
      ∃ y : Shutdown, y.hasClosed = true ∧ t = .running y := by
  cases h with
  | leaves => exact .inl (.refl i)
  | asks h => exact .inl (wanes_of_start h)
  | goesOn h => exact .inl (wanes_of_exchange h)
  | drains | fails => exact .inl (.of_eq rfl rfl rfl)
  | closes hy => exact .inr ⟨rfl, lifecycle_shut i, outgoing_shut i, _, hy, rfl⟩
  | @closesAnswered _ _ _ _ k _ _ _ hy =>
    exact .inr ⟨rfl, lifecycle_shut k, outgoing_shut k, _, hy, rfl⟩
  | closesLate hy => exact .inr ⟨rfl, lifecycle_shut i, outgoing_shut i, _, hy, rfl⟩

end Instance

namespace Scene

open Instance (Exchange Answer Shutdown Start Wanes)

variable {P : Scene → Event → Prop} {s s' : Scene} {e : Event} {m m' : Mail}

/-! ## How an instance ages -/

/-- What an event does to the lifecycle. -/
inductive Ages (s : Scene) (e : Event) (s' : Scene) : Prop where
  /-- Nothing, or the instance is degraded. -/
  | wanes (h : Wanes s.client s'.client)
  | begins {x : Start} (he : e = .start) (hx : s.start = .running x) (hp : x.phase = .begin)
      (hl : s'.client.lifecycle = .starting)
  /-- What the backend has answered is kept. -/
  | keeps (he : e = .start) (hl : s'.client.lifecycle = s.client.lifecycle)
  | advances (he : e = .start)
      (hl : s.client.lifecycle = .starting ∧ s'.client.lifecycle = .initialized ∨
        s.client.lifecycle = .initialized ∧ s'.client.lifecycle = .ready)
  /-- A shutdown closes the input, and goes on. -/
  | closes {n : Nat} {x y : Shutdown} (hn : s.shutdowns[n]? = some (.running x))
      (hx : x.hasClosed = false) (hy : y.hasClosed = true)
      (hs : s'.shutdowns = s.shutdowns.set n (.running y))
      (hl : s'.client.lifecycle = .terminated) (ho : s'.client.outgoing = none)

theorem wanes_attached (i : Instance) (x : Start) : Wanes i (Start.attached i x) :=
  .of_eq (Instance.backend_connect _ _) (Instance.capabilities_connect _ _)
    (Start.lifecycle_attached i x)

/-- What a step of the start does to the lifecycle. -/
theorem ages_of_start {x : Start} {i : Instance} {t : Task Start (Except Fault Unit)}
    (hx : s.start = .running x) (h : x.Goes s.now s.client i t) :
    s.Ages .start { s with client := i, start := t } := by
  cases h with
  | begins hp => exact .begins rfl hx hp rfl
  | attaches hp hs => exact .wanes ((wanes_attached _ x).trans (Instance.wanes_of_start hs))
  | attachesInVain => exact .wanes (wanes_attached _ x)
  | goesOn _ hy | hearsInVain _ hy | hears _ hy => exact .wanes (Instance.wanes_of_exchange hy)
  | keeps => exact .keeps rfl rfl
  | confirms _ hl => exact .advances rfl (.inl ⟨hl, rfl⟩)
  | announces | announcesInVain => exact .wanes (Instance.wanes_send ..)
  | completes _ hl => exact .advances rfl (.inr ⟨hl, rfl⟩)
  | comesLate => exact .wanes (.refl _)

/-- **Aging.** What any event does to the lifecycle. -/
theorem ages_of_act (ha : s.act e = some s') : s.Ages e s' := by
  cases happens_of_act ha with
  | starts hx h => exact ages_of_start hx (Start.goes_of_becomes h)
  | shutsDown hn h =>
    obtain hw | ⟨hx, hl, ho, y, hy, rfl⟩ :=
      Instance.closes_or_wanes (Shutdown.goes_of_becomes h)
    · exact .wanes hw
    · exact .closes hn hx hy rfl hl ho
  | elapses | cancels | stops | leaves | waits | looks | turnsAway => exact .wanes (.refl _)
  | asks h | asksInVain h => exact .wanes (Instance.wanes_of_start h)
  | exchanges hn h => exact .wanes (Instance.wanes_of_exchange (Exchange.goes_of_becomes h))
  | @opens uri languageId text _ _ _ h | @opensInVain uri languageId text _ _ h =>
    have hw := Instance.wanes_openDocument s.client s.now uri languageId text
    rw [h] at hw
    exact .wanes hw
  | @closes uri _ _ h =>
    have hw := Instance.wanes_closeDocument s.client uri
    rw [h] at hw
    exact .wanes hw
  | drops | takes | writes | finishes | failsFrames => exact .wanes (.of_eq rfl rfl rfl)
  | receives => exact .wanes (Instance.wanes_receive ..)
  | loses => exact .wanes (Instance.wanes_loseStream ..)
  | @delivers _ id r => exact .wanes (Instance.wanes_readerStep s.client 0 (.delivering id r))
  | abandons => exact .wanes (Instance.wanes_readerStep s.client 0 .losing)
  | fails => exact .wanes (Instance.wanes_failWriter ..)

/-! ## Before the start -/

/-- Whether the start has begun. -/
def hasBegun (s : Scene) : Bool :=
  match s.start with
  | .running x =>
    match x.phase with
    | .begin => false
    | _ => true
  | _ => true

/-- Nobody stops the instance before its start has begun. -/
def StopsLater (s : Scene) (e : Event) : Prop := e = .stop → s.hasBegun = true

/-- What is true before the start has begun. -/
structure Unbegun (s : Scene) : Prop where
  lifecycle : s.client.lifecycle = .notStarted
  links : s.client.links = []
  outgoing : s.client.outgoing = none
  requests : ∀ t ∈ s.requests, t.rest? = none
  shutdowns : s.shutdowns = []

theorem hasBegun_congr (h : s'.start = s.start) : s'.hasBegun = s.hasBegun := by
  rw [hasBegun, h]
  rfl

theorem phase_of_not_hasBegun (h : s.hasBegun = false) :
    ∃ x, s.start = .running x ∧ x.phase = .begin := by
  unfold hasBegun at h
  split at h
  · rename_i x hx
    refine ⟨x, hx, ?_⟩
    split at h
    · assumption
    · cases h
  · cases h

/-- Before an instance is connected, what is sent goes nowhere. -/
theorem send_of_outgoing {i : Instance} (h : i.outgoing = none) (m : Wire.Message) :
    i.send m = (i, .error .notConnected) := by
  rw [Instance.send, h]

theorem openDocument_of_outgoing {i : Instance} (h : i.outgoing = none) (now : Time)
    (uri languageId text : String) :
    ∃ c, i.openDocument now uri languageId text = (i.withCollector c, .error .notConnected) := by
  refine ⟨(i.registration now uri).1.release (i.registration now uri).2, ?_⟩
  rw [Instance.openDocument_eq,
    send_of_outgoing (i := i.withCollector (i.registration now uri).1) h]
  rfl

theorem closeDocument_of_outgoing {i : Instance} (h : i.outgoing = none) (uri : String) :
    ∃ ds, (i.closeDocument uri).1 = { i with documents := ds } := by
  unfold Instance.closeDocument
  split
  · exact ⟨i.documents, rfl⟩
  · split_ifs
    · have hs : ∀ ds method params, ({ i with documents := ds } : Instance).notify method params =
          ({ i with documents := ds }, .error .notConnected) := fun ds method params =>
        send_of_outgoing (i := { i with documents := ds }) h _
      simp only [hs]
      exact ⟨_, rfl⟩
    · exact ⟨_, rfl⟩

theorem Unbegun.act (h : s.Unbegun) (hb : s'.hasBegun = false) (hp : StopsLater s e)
    (hbegun : s.hasBegun = false) (ha : s.act e = some s') : s'.Unbegun := by
  -- There is no link, no request and no shutdown that could do anything.
  have hlink : ∀ {l}, s.client.link? 0 = some l → s'.Unbegun := by
    intro l hl
    simp [Instance.link?, h.links] at hl
  have hrequest : ∀ {n : Nat} {x : Exchange}, s.requests[n]? = some (.running x) →
      s'.Unbegun := by
    intro n x hn
    cases h.requests _ (List.mem_of_getElem? hn)
  have hshutdown : ∀ {n : Nat} {x : Shutdown}, s.shutdowns[n]? = some (.running x) →
      s'.Unbegun := by
    intro n x hn
    simp [h.shutdowns] at hn
  have hstart : ∀ m p, Exchange.start s.client m p = (s.client, .error .notConnected) := by
    intro m p
    rw [Exchange.start, h.lifecycle]
  cases happens_of_act ha with
  | elapses | waits | looks | turnsAway | drops =>
    exact ⟨h.lifecycle, h.links, h.outgoing, h.requests, h.shutdowns⟩
  | starts hx hg =>
    obtain ⟨y, hy, hbegin⟩ := phase_of_not_hasBegun hb
    cases hy
    cases Start.goes_of_becomes hg <;> cases hbegin
  | asks hx => cases (hstart _ _).symm.trans hx
  | asksInVain hx =>
    cases (hstart _ _).symm.trans hx
    refine ⟨h.lifecycle, h.links, h.outgoing, fun t ht => ?_, h.shutdowns⟩
    rcases List.mem_append.mp ht with ht | ht
    · exact h.requests t ht
    · rw [List.mem_singleton.mp ht]
      rfl
  | exchanges hn | cancels hn => exact hrequest hn
  | stops =>
    have hstop := hp rfl
    rw [hbegun] at hstop
    cases hstop
  | shutsDown hn | leaves hn => exact hshutdown hn
  | @opens uri languageId text _ _ _ ho =>
    obtain ⟨c, hc⟩ := openDocument_of_outgoing h.outgoing s.now uri languageId text
    cases hc.symm.trans ho
  | @opensInVain uri languageId text _ _ ho =>
    obtain ⟨c, hc⟩ := openDocument_of_outgoing h.outgoing s.now uri languageId text
    cases hc.symm.trans ho
    exact ⟨h.lifecycle, h.links, h.outgoing, h.requests, h.shutdowns⟩
  | @closes uri _ _ ho =>
    obtain ⟨ds, hds⟩ := closeDocument_of_outgoing h.outgoing uri
    rw [ho] at hds
    cases hds
    exact ⟨h.lifecycle, h.links, h.outgoing, h.requests, h.shutdowns⟩
  | receives hl | loses hl | delivers hl | abandons hl => exact hlink hl
  | takes hl | writes hl | fails hl | failsFrames hl | finishes hl => exact hlink hl

theorem hasBegun_of_act (hb : s.hasBegun = true) (ha : s.act e = some s') :
    s'.hasBegun = true := by
  by_cases he : e = .start
  · subst he
    cases happens_of_act ha with
    | starts hx h => cases Start.goes_of_becomes h <;> rfl
  · rw [hasBegun_congr (start_of_act ha he), hb]

theorem unbegun_of_reachable (hP : ∀ s e, P s e → StopsLater s e) (h : Reachable P s)
    (hb : s.hasBegun = false) : s.Unbegun := by
  induction h with
  | new backend budget roots directory launch isProcess clientProcess =>
    exact ⟨rfl, rfl, rfl, by simp [new], rfl⟩
  | @step s s' e _ he ha ih =>
    cases hbegun : s.hasBegun with
    | true =>
      rw [hasBegun_of_act hbegun ha] at hb
      cases hb
    | false => exact (ih hbegun).act hb (hP _ _ he) hbegun ha

/-! ## Life goes forward -/

theorem rank_le_of_ages (hb : s.hasBegun = false → s.client.lifecycle = .notStarted)
    (h : s.Ages e s') : s.client.lifecycle.rank ≤ s'.client.lifecycle.rank := by
  cases h with
  | wanes h =>
    rcases h.lifecycle with hl | ⟨hne, hl⟩
    · rw [hl]
    · rw [hl]
      revert hne
      cases s.client.lifecycle <;> decide
  | begins _ hx hp hl =>
    have hbegun : s.hasBegun = false := by simp [hasBegun, hx, hp]
    rw [hb hbegun]
    exact Nat.zero_le _
  | keeps _ hl => rw [hl]
  | advances _ hl => rcases hl with ⟨hl, hl'⟩ | ⟨hl, hl'⟩ <;> rw [hl, hl'] <;> decide
  | closes _ _ _ _ hl =>
    rw [hl]
    cases s.client.lifecycle <;> decide

/-- **Life.** It goes forward with every event. -/
theorem rank_le_of_act (hP : ∀ s e, P s e → StopsLater s e) (h : Reachable P s)
    (ha : s.act e = some s') : s.client.lifecycle.rank ≤ s'.client.lifecycle.rank :=
  rank_le_of_ages (fun hb => (unbegun_of_reachable hP h hb).lifecycle) (ages_of_act ha)

theorem rank_le_of_after (hP : ∀ s e, P s e → StopsLater s e) (ht : Traced P s m)
    (h : After P s m s' m') : s.client.lifecycle.rank ≤ s'.client.lifecycle.rank := by
  induction h with
  | refl => exact Nat.le_refl _
  | step h _ ha ih => exact ih.trans (rank_le_of_act hP (h.traced ht).reachable ha)

theorem terminated_of_rank_le {i j : Instance} (hi : i.lifecycle = .terminated)
    (h : i.lifecycle.rank ≤ j.lifecycle.rank) : j.lifecycle = .terminated := by
  rw [hi] at h
  revert h
  cases j.lifecycle <;> decide

/-- Once the start has begun, life goes forward whatever is done. -/
theorem rank_le_of_hasBegun (hb : s.hasBegun = true) (ha : s.act e = some s') :
    s.client.lifecycle.rank ≤ s'.client.lifecycle.rank := by
  refine rank_le_of_ages (fun hn => ?_) (ages_of_act ha)
  rw [hb] at hn
  cases hn

theorem begun_of_after (hb : s.hasBegun = true) (h : After P s m s' m') :
    s'.hasBegun = true ∧ s.client.lifecycle.rank ≤ s'.client.lifecycle.rank := by
  induction h with
  | refl => exact ⟨hb, Nat.le_refl _⟩
  | step h _ ha ih => exact ⟨hasBegun_of_act ih.1 ha, ih.2.trans (rank_le_of_hasBegun ih.1 ha)⟩

/-! ## Shutdowns that have closed the input -/

theorem hasClosed_of_act (ha : s.act e = some s') {x : Shutdown}
    (hx : .running x ∈ s'.shutdowns) (hc : x.hasClosed = true) :
    (∃ y : Shutdown, .running y ∈ s.shutdowns ∧ y.hasClosed = true) ∨
      s'.client.lifecycle = .terminated := by
  cases happens_of_act ha with
  | stops =>
    rcases List.mem_append.mp hx with hx | hx
    · exact .inl ⟨x, hx, hc⟩
    · cases List.mem_singleton.mp hx
      cases hc
  | leaves =>
    rcases List.mem_or_eq_of_mem_set hx with hx | hx
    · exact .inl ⟨x, hx, hc⟩
    · cases hx
  | @shutsDown n exited y i t hn h =>
    rcases List.mem_or_eq_of_mem_set hx with hx | rfl
    · exact .inl ⟨x, hx, hc⟩
    · cases Shutdown.goes_of_becomes h with
      | asks | goesOn => cases hc
      | drains _ hy => exact .inl ⟨y, List.mem_of_getElem? hn, hy⟩
      | closes | closesAnswered | closesLate => exact .inr (Instance.lifecycle_shut _)
  | _ => exact .inl ⟨x, hx, hc⟩

/-- While a shutdown goes on that has closed the input, the instance is stopped. -/
theorem terminated_of_hasClosed (hP : ∀ s e, P s e → StopsLater s e) (h : Reachable P s)
    {x : Shutdown} (hx : .running x ∈ s.shutdowns) (hc : x.hasClosed = true) :
    s.client.lifecycle = .terminated := by
  induction h generalizing x with
  | new backend budget roots directory launch isProcess clientProcess => cases hx
  | step h _ ha ih =>
    rcases hasClosed_of_act ha hx hc with ⟨y, hy, hcy⟩ | hl
    · exact terminated_of_rank_le (ih hy hcy) (rank_le_of_act hP h ha)
    · exact hl

/-! ## A degraded instance takes no requests -/

/-- Of the requests, only those that had begun go on, and of those only the ones are queued that
were about to be. -/
structure BeginsNone (s : Scene) (t : Traffic) (xs : Multiset Exchange) : Prop where
  nextId : t.nextId = s.client.nextId
  isNew : ∀ x ∈ xs, x.phase = .register → x ∈ s.exchanges
  asked : ∀ r ∈ t.asked, r ∈ s.client.asked ∨
    ∃ x ∈ s.exchanges, x.phase = .register ∧ r = .new x.id x.method x.params

theorem beginsNone_of_turn {d : Mail} {t : Traffic} {xs : Multiset Exchange}
    (hr : 4 ≤ s.client.lifecycle.rank) (h : s.Turn e d t xs) : BeginsNone s t xs := by
  have hkeeps : ∀ {t : Traffic} {xs : Multiset Exchange}, t.nextId = s.client.nextId →
      t.asked = s.client.asked → (∀ x ∈ xs, x.phase = .register → x ∈ s.exchanges) →
      BeginsNone s t xs :=
    fun hn ha hx => ⟨hn, hx, fun r hr => .inl (ha ▸ hr)⟩
  cases h with
  | stays | reads | ignores | hands | discards | loses | fails =>
    exact hkeeps rfl rfl fun _ hx _ => hx
  | begins _ hlt => exact absurd hr (Nat.not_le_of_lt hlt)
  | drops hs | hears hs | forgets hs =>
    exact hkeeps rfl rfl fun _ hx _ => hs ▸ Multiset.mem_cons_of_mem hx
  | misses hs | expires hs =>
    refine hkeeps rfl rfl (Multiset.forall_mem_cons.mpr ⟨by simp, fun _ hx _ => ?_⟩)
    exact hs ▸ Multiset.mem_cons_of_mem hx
  | @queues x rest deadline hs hp =>
    refine ⟨rfl, Multiset.forall_mem_cons.mpr ⟨by simp, fun _ hx _ => ?_⟩, fun r hr => ?_⟩
    · exact hs ▸ Multiset.mem_cons_of_mem hx
    · refine (List.mem_append.mp hr).imp_right fun hr => ?_
      exact ⟨x, hs ▸ Multiset.mem_cons_self x rest, hp, List.mem_singleton.mp hr⟩

theorem BeginsNone.trans {t : Traffic} {xs : Multiset Exchange}
    (h : BeginsNone s s'.client.traffic s'.exchanges) (h' : BeginsNone s' t xs) :
    BeginsNone s t xs where
  nextId := h'.nextId.trans h.nextId
  isNew x hx hp := h.isNew x (h'.isNew x hx hp) hp
  asked r hr := by
    rcases h'.asked r hr with hr | ⟨x, hx, hp, rfl⟩
    · exact h.asked r hr
    · exact .inr ⟨x, h.isNew x hx hp, hp, rfl⟩

theorem beginsNone_of_after (ht : Traced P s m) (hb : s.hasBegun = true)
    (hr : 4 ≤ s.client.lifecycle.rank) (h : After P s m s' m') :
    BeginsNone s s'.client.traffic s'.exchanges := by
  induction h with
  | refl => exact ⟨rfl, fun _ hx _ => hx, fun _ hr => .inl hr⟩
  | step h _ ha ih =>
    have hr' := hr.trans (begun_of_after hb h).2
    exact ih.trans (beginsNone_of_turn hr'
      (turn_of_act (wired_of_reachable (h.traced ht).reachable) ha))

/-- Who asks a degraded or a stopped backend is told so. -/
theorem act_ask_of_rank (hr : 4 ≤ s.client.lifecycle.rank) (method : String)
    (params : Option Json) :
    s.act (.ask method params) =
      some { s with requests := s.requests ++ [.ended (.error s.client.gone)] } := by
  obtain ⟨hl, -⟩ | ⟨-, hs⟩ | ⟨-, hlt, -⟩ := Exchange.start_cases s.client method params
  · rw [hl] at hr
    exact absurd hr (by decide)
  · rw [act, hs]
  · exact absurd hr (Nat.not_le_of_lt hlt)

/-! ## How a start succeeds -/

/-- A response `w` was handed to the request `n` that asked the backend to initialize itself, and its
result `r` could be decoded. -/
structure Introduced (s : Scene) (m : Mail) (n : Nat) (w : Wire.Response)
    (r : Wire.InitializeResult) : Prop where
  asked : ∃ p, Wire.Request.new n "initialize" p ∈ s.client.asked
  handed : (n, w) ∈ m.handed
  decoded : ∃ j, w.outcome = .ok j ∧ Wire.InitializeResult.decode j = .ok r

/-- The backend was asked to initialize itself with the request `n`, and later told that it is taken
as initialized. -/
def Told (i : Instance) (n : Nat) : Prop :=
  ∃ p, [.request (.new n "initialize" p), Instance.readiness].Sublist i.queued

/-- What has been done when a start comes to a phase. -/
def Introduces (s : Scene) (m : Mail) : Start.Phase → Prop
  | .begin | .attach => True
  | .handshake x => x.method = "initialize"
  | .record r => ∃ n w, s.Introduced m n w r
  | .confirm | .announce => ∃ n w r, s.Introduced m n w r ∧ s.client.capabilities = some r
  | .complete => ∃ n w r,
      s.Introduced m n w r ∧ s.client.capabilities = some r ∧ Told s.client n

theorem queued_of_act (hw : s.Wired) (ha : s.act e = some s') :
    s.client.queued <+: s'.client.queued := by
  obtain ⟨ms, -, h⟩ := posts_of_act hw ha
  exact ⟨ms, h.queued.symm⟩

theorem Introduced.act {n : Nat} {w : Wire.Response} {r : Wire.InitializeResult}
    (h : s.Introduced m n w r) (hw : s.Wired) (ha : s.act e = some s') :
    s'.Introduced (m ++ s.mail e) n w r where
  asked := h.asked.imp fun _ hp => ((queued_of_act hw ha).filterMap _).subset hp
  handed := List.mem_append_left _ h.handed
  decoded := h.decoded

/-- What is queued after the first request comes after it in the queue. -/
theorem Introduced.told {n : Nat} {w : Wire.Response} {r : Wire.InitializeResult} {i : Instance}
    (h : s.Introduced m n w r) (hq : i.queued = s.client.queued ++ [Instance.readiness]) :
    Told i n := by
  obtain ⟨p, hp⟩ := h.asked
  obtain ⟨frame, hmem, hframe⟩ := List.mem_filterMap.mp hp
  refine ⟨p, ?_⟩
  cases frame with
  | notification | response => cases hframe
  | request q =>
    cases hframe
    rw [hq]
    exact (List.singleton_sublist.mpr hmem).append (List.Sublist.refl _)

theorem method_of_goes {now : Time} {i j : Instance} {x y : Exchange}
    (h : x.Goes now i j (.running y)) : y.method = x.method := by
  cases h <;> rfl

theorem outcome_of_resultOf {i : Instance} {w : Wire.Response} {j : Json}
    (h : Exchange.resultOf i w = .ok j) : w.outcome = .ok j := by
  unfold Exchange.resultOf at h
  split at h
  · rename_i heq
    cases h
    exact heq
  · split_ifs at h

/-- A request that succeeds has been answered. -/
theorem hears_of_goes {now : Time} {i j : Instance} {x : Exchange} {v : Json}
    (h : x.Goes now i j (.ended (.ok v))) :
    ∃ deadline w, x.phase = .waiting deadline ∧ i.answers.lookup x.id = some w ∧
      w.outcome = .ok v := by
  generalize ht : (Task.ended (.ok v) : Task Exchange Answer) = t at h
  cases h with
  | queues | misses | expires => cases ht
  | unregisters | givesUp => cases ht
  | hears hp hr =>
    injection ht with ht
    exact ⟨_, _, hp, hr, outcome_of_resultOf ht.symm⟩

/-- What a request succeeds with was handed to it, after it was queued. -/
theorem handed_of_goes {i : Instance} {x : Exchange} {v : Json} (hs : s.Sound m)
    (hx : x ∈ s.exchanges) (h : x.Goes s.now s.client i (.ended (.ok v))) :
    ∃ w, (x.id, w) ∈ m.handed ∧ w.outcome = .ok v ∧
      Wire.Request.new x.id x.method x.params ∈ s.client.asked := by
  obtain ⟨deadline, w, hp, hr, ho⟩ := hears_of_goes h
  rcases hs.posted.answers _ (Assoc.mem_of_lookup hr) with hh | ⟨f, -, hf⟩
  · exact ⟨w, hh, ho, hs.attended.sent x hx deadline hp⟩
  · have hw : w = .failure (some (.number f.1)) f.2 := (congrArg Prod.snd hf).symm
    rw [hw] at ho
    cases ho

/-- What happens beside the start undoes nothing of what it has done. -/
theorem Introduces.beside {phase : Start.Phase} (h : s.Introduces m phase) (hw : s.Wired)
    (he : e ≠ .start) (ha : s.act e = some s') : s'.Introduces (m ++ s.mail e) phase := by
  have hcap := (endures_act he ha).capabilities
  cases phase with
  | begin | attach => trivial
  | handshake x => exact h
  | record r =>
    obtain ⟨n, w, hi⟩ := h
    exact ⟨n, w, hi.act hw ha⟩
  | confirm | announce =>
    obtain ⟨n, w, r, hi, hr⟩ := h
    exact ⟨n, w, r, hi.act hw ha, hcap.trans hr⟩
  | complete =>
    obtain ⟨n, w, r, hi, hr, p, hp⟩ := h
    exact ⟨n, w, r, hi.act hw ha, hcap.trans hr, p, hp.trans (queued_of_act hw ha).sublist⟩

/-- Every step of the start does what is to be done before the next phase. -/
theorem Introduces.start {x x' : Start} (h : s.Introduces m x.phase) (hs : s.Sound m)
    (hw : s.Wired) (hx : s.start = .running x) (ha : s.act .start = some s')
    (hx' : s'.start = .running x') : s'.Introduces (m ++ s.mail .start) x'.phase := by
  have ha' := ha
  cases happens_of_act ha with
  | starts hy hg =>
    cases hx.symm.trans hy
    subst hx'
    cases Start.goes_of_becomes hg with
    | begins => trivial
    | attaches hp hz =>
      obtain ⟨-, -, -, rfl⟩ := Exchange.start_ok hz
      exact rfl
    | goesOn hp hz =>
      rw [hp] at h
      exact (method_of_goes hz).trans h
    | @hears y v r _ hp hz hv =>
      rw [hp] at h
      obtain ⟨w, hh, ho, hr⟩ := handed_of_goes hs (mem_exchanges_of_start hx hp) hz
      rw [show y.method = "initialize" from h] at hr
      exact ⟨y.id, w, Introduced.act ⟨⟨_, hr⟩, hh, v, ho, hv⟩ hw ha'⟩
    | @keeps r hp =>
      rw [hp] at h
      obtain ⟨n, w, hi⟩ := h
      exact ⟨n, w, r, hi.act hw ha', rfl⟩
    | confirms hp =>
      rw [hp] at h
      obtain ⟨n, w, r, hi, hr⟩ := h
      exact ⟨n, w, r, hi.act hw ha', hr⟩
    | announces hp hok =>
      rw [hp] at h
      obtain ⟨n, w, r, hi, hr⟩ := h
      have hcap := (Instance.wanes_send s.client Instance.readiness).capabilities
      have hsend : s.client.canSend = true := by
        obtain ⟨hc, -⟩ | ⟨-, f, -, hf⟩ := Exchange.send_cases s.client Instance.readiness
        · exact hc
        · cases hf.symm.trans hok
      have hq := (Instance.sends_of_canSend hw.linked hsend Instance.readiness).queued
      exact ⟨n, w, r, hi.act hw ha', hcap.trans hr, hi.told hq⟩

theorem introduces_of_traced (h : Traced P s m) :
    ∀ x, s.start = .running x → s.Introduces m x.phase := by
  induction h with
  | new backend budget roots directory launch isProcess clientProcess =>
    intro x hx
    cases hx
    trivial
  | @step s s' m e h _ ha ih =>
    have hw := wired_of_reachable h.reachable
    intro x' hx'
    by_cases he : e = .start
    · subst he
      cases happens_of_act ha with
      | @starts x i t hx hg => exact (ih x hx).start (sound_of_traced h) hw hx ha hx'
    · exact (ih x' (start_of_act ha he ▸ hx')).beside hw he ha

/-- What the last step of a start comes to that succeeds and leaves `i`: a response `w` was handed
to the request `n` that asked the backend to initialize itself, its result could be decoded, and was
kept; the backend was told later that it is taken as initialized; and the instance, which has counted
as initialized until now, becomes ready. -/
structure Succeeds (s : Scene) (m : Mail) (i : Instance) (n : Nat) (w : Wire.Response)
    (r : Wire.InitializeResult) : Prop where
  introduced : s.Introduced m n w r
  kept : i.capabilities = some r
  told : Told i n
  initialized : s.client.lifecycle = .initialized
  ready : i.lifecycle = .ready

theorem exists_succeeds (hi : ∀ x, s.start = .running x → s.Introduces m x.phase)
    (ha : s.act .start = some s') (hs : s'.start = .ended (.ok ())) :
    ∃ n w r, s.Succeeds m s'.client n w r := by
  cases happens_of_act ha with
  | @starts x i t hx hg =>
    cases hs
    generalize ht : (Task.ended (.ok ()) : Task Start (Except Fault Unit)) = t at hg
    cases Start.goes_of_becomes hg with
    | begins | attaches | goesOn | hears | keeps | confirms | announces => cases ht
    | attachesInVain | hearsInVain | announcesInVain | comesLate => cases ht
    | completes hp hl =>
      have h := hi x hx
      rw [hp] at h
      obtain ⟨n, w, r, hintro, hr, htold⟩ := h
      exact ⟨n, w, r, hintro, hr, htold, hl, rfl⟩

/-- **Forward.** If nobody stops an instance before its start has begun, its life only goes forward,
and does not end in anything but `terminated`; its start succeeds only with a decoded answer to its
first request, by way of `initialized` to `ready`; and once it is degraded or terminated no request
begins any more, so that no frame is queued but those of requests that had begun. -/
theorem forward_of_traced (h : Traced StopsLater s m) :
    (∀ s' m', After StopsLater s m s' m' →
      s.client.lifecycle.rank ≤ s'.client.lifecycle.rank ∧
        (s.client.lifecycle = .terminated → s'.client.lifecycle = .terminated)) ∧
    (∀ s', s.act .start = some s' → s'.start = .ended (.ok ()) →
      ∃ n w r, s.Succeeds m s'.client n w r) ∧
    (4 ≤ s.client.lifecycle.rank → ∀ s' m', After StopsLater s m s' m' →
      s'.client.nextId = s.client.nextId ∧
      (∀ method params, s'.act (.ask method params) =
        some { s' with requests := s'.requests ++ [.ended (.error s'.client.gone)] }) ∧
      ∀ r ∈ s'.client.asked, r ∈ s.client.asked ∨
        ∃ x ∈ s.exchanges, x.phase = .register ∧ r = .new x.id x.method x.params) := by
  have hP : ∀ s e, StopsLater s e → StopsLater s e := fun _ _ => id
  refine ⟨fun s' m' ha => ?_, fun s' => ?_, fun hr s' m' ha => ?_⟩
  · have hle := rank_le_of_after hP h ha
    exact ⟨hle, fun ht => terminated_of_rank_le ht hle⟩
  · exact exists_succeeds (introduces_of_traced h)
  · have hb : s.hasBegun = true := by
      by_contra hn
      have hl := (unbegun_of_reachable hP h.reachable (by simpa using hn)).lifecycle
      rw [hl] at hr
      exact absurd hr (by decide)
    have hnone := beginsNone_of_after h hb hr ha
    exact ⟨hnone.nextId, act_ask_of_rank (hr.trans (begun_of_after hb ha).2), hnone.asked⟩

/-- The run that makes the backend ready, but for its last step. -/
def answering : List Event :=
  connecting ++ [.start, .receive greeting, .read, .start, .start, .start, .start]

def answered : Scene × Mail := (sample.follow {} answering).getD (sample, {})

/-- The start succeeds with its last step. -/
theorem forward_of_traced_answered :
    ∃ s', answered.1.act .start = some s' ∧ s'.start = .ended (.ok ()) ∧
      s'.client.lifecycle = .ready ∧
      ∃ n w r, answered.1.Succeeds answered.2 s'.client n w r := by
  have hrun : sample.follow {} answering = some (answered.1, answered.2) := by rfl
  have htraced : Traced StopsLater answered.1 answered.2 :=
    Traced.follow (.new _ _ _ _ _ _ _) (fun _ => by simp [answering, connecting, StopsLater]) hrun
  have hact : ∃ s', answered.1.act .start = some s' ∧ s'.start = .ended (.ok ()) ∧
      s'.client.lifecycle = .ready := ⟨_, rfl, rfl, rfl⟩
  obtain ⟨s', ha, hs, hl⟩ := hact
  exact ⟨s', ha, hs, hl, (forward_of_traced htraced).2.1 s' ha hs⟩

end Scene

end DiagnosticBroker
