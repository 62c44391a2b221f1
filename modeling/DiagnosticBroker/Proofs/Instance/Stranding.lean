import DiagnosticBroker.Proofs.Instance.Lifecycle

/-!
# Requests on a lost stream

When the stream of an instance is lost, the instance is degraded, and all requests that wait are
failed after that. Nobody begins a request any more. Those that were begun before and are not
registered yet can still be registered, and then wait in vain; `Aftermath` says that there is
nothing else to come.

Results:
* `rank_of_losing`: an instance is degraded before its requests are failed.
* `aftermath_of_after`: what there is on requests after the loss.
* `relieved_of_traced`: whoever waits when the stream is lost is told at once.
-/

namespace DiagnosticBroker.Scene

open Instance (Exchange Answer Shutdown Start)

variable {P : Scene → Event → Prop} {s s' s₁ : Scene} {e : Event} {m m' m₁ d : Mail}

/-! ## Before the requests are failed -/

theorem hasBegun_of_link (hw : s.Wired) {l : Link} (hl : s.client.link? 0 = some l) :
    s.hasBegun = true := by
  cases hb : s.hasBegun with
  | true => rfl
  | false =>
    obtain ⟨x, hx, hp⟩ := phase_of_not_hasBegun hb
    simp [Instance.link?, hw.unattached x hx (.inl hp)] at hl

theorem exists_link_of_reader {r : Reading} (h : s.client.reader = r) (hr : r ≠ .idle) :
    ∃ l, s.client.link? 0 = some l ∧ l.reader = r := by
  unfold Instance.reader at h
  cases hl : s.client.link? 0 with
  | none =>
    rw [hl] at h
    exact absurd h.symm hr
  | some l =>
    rw [hl] at h
    exact ⟨l, rfl, h⟩

theorem rank_loseStream (i : Instance) (k : Nat) : 4 ≤ (i.loseStream k).lifecycle.rank := by
  unfold Instance.loseStream
  split_ifs with h
  · change 4 ≤ i.lifecycle.rank
    rw [h]
    decide
  · change 4 ≤ i.markDegraded.lifecycle.rank
    unfold Instance.markDegraded
    cases hl : i.lifecycle with
    | terminated => exact absurd hl h
    | _ => exact Nat.le_refl 4

/-- Only the end of the stream makes the reader fail what waits. -/
theorem losing_of_turn {t : Traffic} {xs : Multiset Exchange} (he : e ≠ .lose)
    (h : s.Turn e d t xs) (hr : t.reader = .losing) : s.client.reader = .losing := by
  cases h with
  | loses hlose => exact absurd hlose he
  | reads | hands | discards => cases hr
  | fails _ hx =>
    rcases hx with rfl | ⟨-, rfl⟩
    · exact hr
    · cases hr
  | _ => exact hr

/-- Before the requests are failed that wait on a lost stream, the instance is degraded. -/
theorem rank_of_losing (h : Reachable P s) (hr : s.client.reader = .losing) :
    4 ≤ s.client.lifecycle.rank := by
  induction h with
  | new backend budget roots directory launch isProcess clientProcess => cases hr
  | @step s s' e h _ ha ih =>
    -- The loss degrades the instance; afterwards its life goes forward, since it has a link.
    by_cases he : e = .lose
    · subst he
      cases happens_of_act ha with
      | loses => exact rank_loseStream ..
    · have hw := wired_of_reachable h
      have hlosing := losing_of_turn he (turn_of_act hw ha) hr
      obtain ⟨l, hl, -⟩ := exists_link_of_reader hlosing (by simp)
      exact (ih hlosing).trans (rank_le_of_hasBegun (hasBegun_of_link hw hl) ha)

/-! ## After the requests were failed -/

/-- What there is on requests some time after a scene: the requests of that time as they were, and
what has become of those that were not registered then. -/
structure Aftermath (s₁ : Scene) (m₁ : Mail) (pending : List Nat) (xs : Multiset Exchange)
    (m : Mail) : Prop where
  exchanges : ∀ x ∈ xs, x ∈ s₁.exchanges ∨ x.id ∈ unsent s₁.exchanges
  pending : ∀ n ∈ pending, n ∈ unsent s₁.exchanges
  mail : ∃ d, m = m₁ ++ d ∧ ∀ n ∈ d.resolved, n ∈ unsent s₁.exchanges

theorem mem_unsent {x : Exchange} {xs : Multiset Exchange} (hx : x ∈ xs)
    (hp : x.phase = .register) : x.id ∈ unsent xs := by
  have hnew : x ∈ xs.filter (·.isNew) :=
    Multiset.mem_filter.mpr ⟨hx, by rw [Exchange.isNew, hp]⟩
  exact Multiset.mem_map_of_mem (·.id) hnew

theorem not_mem_unsent {x : Exchange} {xs : Multiset Exchange} (hids : (xs.map (·.id)).Nodup)
    (hx : x ∈ xs) (hp : x.phase ≠ .register) : x.id ∉ unsent xs := by
  intro hmem
  obtain ⟨y, hy, hid⟩ := Multiset.mem_map.mp hmem
  obtain ⟨hy, hnew⟩ := Multiset.mem_filter.mp hy
  cases Multiset.inj_on_of_nodup_map hids y hy x hx hid
  unfold Exchange.isNew at hnew
  split at hnew
  · exact hp ‹_›
  · cases hnew

/-- Somebody who was waiting then has an answer. -/
theorem Aftermath.answered (h : Aftermath s₁ m₁ s.client.pending s.exchanges m) (hs₁ : s₁.Sound m₁)
    (hs : s.Sound m) {x : Exchange} {deadline : Time} (hx : x ∈ s.exchanges)
    (hx₁ : x ∈ s₁.exchanges) (hp : x.phase = .waiting deadline) :
    ∃ r, s.client.answers.lookup x.id = some r := by
  refine (hs.attended.waits x hx deadline hp).resolve_left fun hmem => ?_
  exact not_mem_unsent hs₁.ids.nodup hx₁ (by simp [hp]) (h.pending _ hmem)

theorem Aftermath.turn {t : Traffic} {xs : Multiset Exchange}
    (h : Aftermath s₁ m₁ s.client.pending s.exchanges m) (hs₁ : s₁.Sound m₁) (hs : s.Sound m)
    (hr : 4 ≤ s.client.lifecycle.rank) (ht : s.Turn e d t xs) :
    Aftermath s₁ m₁ t.pending xs (m ++ d) := by
  have hmail : ∀ d : Mail, (∀ n ∈ d.resolved, n ∈ unsent s₁.exchanges) →
      ∃ d', m ++ d = m₁ ++ d' ∧ ∀ n ∈ d'.resolved, n ∈ unsent s₁.exchanges := by
    intro d hd
    obtain ⟨d₀, rfl, hd₀⟩ := h.mail
    refine ⟨d₀ ++ d, ?_, fun n hn => ?_⟩
    · simp [Mail.ext_iff]
    · have hmem : n ∈ (d₀.resolved + d.resolved : Multiset Nat) := resolved_append d₀ d ▸ hn
      exact (Multiset.mem_add.mp hmem).elim (hd₀ n) (hd n)
  have hnone : ∀ a, ∃ d', m ++ { arrived := a } = m₁ ++ d' ∧
      ∀ n ∈ d'.resolved, n ∈ unsent s₁.exchanges := fun a => hmail _ (by simp [Mail.resolved])
  have hregisters : ∀ {x rest}, s.exchanges = x ::ₘ rest → x.phase = .register →
      x.id ∈ unsent s₁.exchanges := by
    intro x rest hx hp
    rcases h.exchanges x (hx ▸ Multiset.mem_cons_self x rest) with hx₁ | hnew
    · exact mem_unsent hx₁ hp
    · exact hnew
  have hrest : ∀ {x rest}, s.exchanges = x ::ₘ rest →
      ∀ y ∈ rest, y ∈ s₁.exchanges ∨ y.id ∈ unsent s₁.exchanges :=
    fun hx y hy => h.exchanges y (hx ▸ Multiset.mem_cons_of_mem hy)
  cases ht with
  | stays | discards | loses => exact ⟨h.exchanges, h.pending, hnone []⟩
  | reads | ignores => exact ⟨h.exchanges, h.pending, hnone _⟩
  | begins _ hlt => exact absurd hr (Nat.not_le_of_lt hlt)
  | drops hx | hears hx => exact ⟨hrest hx, h.pending, hnone []⟩
  | queues hx hp | misses hx hp =>
    have hnew := hregisters hx hp
    refine ⟨Multiset.forall_mem_cons.mpr ⟨.inr hnew, hrest hx⟩, fun n hn => ?_, hnone []⟩
    rcases List.mem_append.mp hn with hn | hn
    · exact h.pending n hn
    · exact List.mem_singleton.mp hn ▸ hnew
  | @expires x rest deadline hx hp hl =>
    -- Whoever was waiting at the cut has an answer, so that only a new one runs out of time.
    refine ⟨Multiset.forall_mem_cons.mpr ⟨?_, hrest hx⟩, h.pending, hnone []⟩
    have hmem : x ∈ s.exchanges := hx ▸ Multiset.mem_cons_self x rest
    refine (h.exchanges x hmem).imp_left fun hx₁ => ?_
    obtain ⟨r, hr⟩ := h.answered hs₁ hs hmem hx₁ hp
    cases hl.symm.trans hr
  | forgets hx =>
    exact ⟨hrest hx, fun n hn => h.pending n (List.mem_of_mem_erase hn), hnone []⟩
  | @hands r id n _ hn =>
    have hmem := h.pending n (Instance.names_of_pendingFor? hn).1
    exact ⟨h.exchanges, fun k hk => h.pending k (List.mem_of_mem_erase hk),
      hmail _ (by simpa [Mail.resolved] using hmem)⟩
  | @fails error =>
    refine ⟨h.exchanges, by simp, hmail _ fun n hn => h.pending n ?_⟩
    simpa [Mail.resolved, Instance.failures] using hn

/-- Once an instance is degraded and nothing waits on it, there is nothing to come but what has been
begun. -/
theorem aftermath_of_after (h₁ : Traced P s₁ m₁) (hb : s₁.hasBegun = true)
    (hr : 4 ≤ s₁.client.lifecycle.rank) (hp : s₁.client.pending = [])
    (h : After P s₁ m₁ s m) : Aftermath s₁ m₁ s.client.pending s.exchanges m := by
  induction h with
  | refl => exact ⟨fun _ => .inl, by simp [hp], {}, by simp, by simp [Mail.resolved]⟩
  | step h _ ha ih =>
    have ht := h.traced h₁
    exact ih.turn (sound_of_traced h₁) (sound_of_traced ht) (hr.trans (begun_of_after hb h).2)
      (turn_of_act (wired_of_reachable ht.reachable) ha)

/-! ## Requests that a shutdown has failed -/

theorem failing_of_turn {t : Traffic} {xs : Multiset Exchange} (h : s.Turn e d t xs) {n : Nat}
    (hn : (n, Instance.stopError) ∈ d.failed) : .running Shutdown.failing ∈ s.shutdowns := by
  cases h with
  | fails he =>
    obtain ⟨k, -, hk⟩ := List.mem_map.mp hn
    cases hk
    rcases he with ⟨text, he⟩ | ⟨-, hmem⟩
    · cases he
    · exact hmem
  | _ => cases hn

/-- If nobody stops an instance before its start has begun, then only a stopped instance has
requests that a shutdown has failed. -/
theorem terminated_of_stopped (hP : ∀ s e, P s e → StopsLater s e) (h : Traced P s m) {n : Nat}
    (hn : (n, Instance.stopError) ∈ m.failed) : s.client.lifecycle = .terminated := by
  induction h with
  | new backend budget roots directory launch isProcess clientProcess => cases hn
  | step h _ ha ih =>
    refine terminated_of_rank_le ?_ (rank_le_of_act hP h.reachable ha)
    rcases List.mem_append.mp hn with hn | hn
    · exact ih hn
    · have hmem := failing_of_turn (turn_of_act (wired_of_reachable h.reachable) ha) hn
      exact terminated_of_hasClosed hP h.reachable hmem rfl

/-! ## How requests end on a lost stream -/

/-- How a request ends that is under way when those that wait on a lost stream have been failed. -/
inductive Freed (i : Instance) (m₁ : Mail) (x : Exchange) : Answer → Prop where
  | gone {deadline : Time} {text : String} (hp : x.phase = .waiting deadline)
      (hf : (x.id, Instance.lostError text) ∈ m₁.failed) : Freed i m₁ x (.error i.gone)
  /-- Its response had come before. -/
  | answered {deadline : Time} {r : Wire.Response} (hp : x.phase = .waiting deadline)
      (hr : (x.id, r) ∈ m₁.handed) : Freed i m₁ x (Exchange.resultOf i r)
  /-- A shutdown had failed it before. -/
  | stopped {deadline : Time} (hp : x.phase = .waiting deadline)
      (hf : (x.id, Instance.stopError) ∈ m₁.failed) :
      Freed i m₁ x (.error (.refused Fault.cancelledCode "Backend shutdown"))
  /-- It could not be queued. -/
  | missed {f : Fault} (hp : x.phase = .unregister f) (hf : f = .notConnected ∨ f = i.gone) :
      Freed i m₁ x (.error f)
  /-- Its time was up before. -/
  | late (hp : x.phase = .giveUp) : Freed i m₁ x (.error (Exchange.timedOut i x.method))

/-- What is true of requests some time after those that waited on a lost stream were failed, which
left `s₁`. -/
structure Relieved (s₁ : Scene) (m₁ : Mail) (s : Scene) : Prop where
  refuses : ∀ method params, s.act (.ask method params) =
    some { s with requests := s.requests ++ [.ended (.error s.client.gone)] }
  /-- No request is under way but those of that time, which are as they were unless they were not
  registered then. -/
  exchanges : ∀ x ∈ s.exchanges, x ∈ s₁.exchanges ∨ x.id ∈ unsent s₁.exchanges
  pending : ∀ n ∈ s.client.pending, n ∈ unsent s₁.exchanges
  /-- The next step of any other one is its last. -/
  ends : ∀ x ∈ s.exchanges, x.id ∉ unsent s₁.exchanges →
    ∃ i a, x.step s.now s.client = .done i a ∧ Freed s.client m₁ x a

theorem Aftermath.exists_done {x : Exchange}
    (h : Aftermath s₁ m₁ s.client.pending s.exchanges m) (hs₁ : s₁.Sound m₁) (hs : s.Sound m)
    (hx : x ∈ s.exchanges) (hnew : x.id ∉ unsent s₁.exchanges) :
    ∃ i a, x.step s.now s.client = .done i a := by
  have hx₁ := (h.exchanges x hx).resolve_right hnew
  cases hp : x.phase with
  | register => exact absurd (mem_unsent hx₁ hp) hnew
  | unregister f | giveUp =>
    simp only [Exchange.step, hp]
    exact ⟨_, _, rfl⟩
  | waiting deadline =>
    obtain ⟨r, hr⟩ := h.answered hs₁ hs hx hx₁ hp
    obtain ⟨i, hd⟩ := Exchange.done_of_answered hp hr
    exact ⟨i, _, hd⟩

theorem Aftermath.freed {x : Exchange} {i : Instance} {a : Answer}
    (h : Aftermath s₁ m₁ s.client.pending s.exchanges m) (hs : s.Sound m) (hx : x ∈ s.exchanges)
    (hnew : x.id ∉ unsent s₁.exchanges) (hd : x.step s.now s.client = .done i a) :
    Freed s.client m₁ x a := by
  obtain ⟨d, hm, hlater⟩ := h.mail
  have hhanded : ∀ r, (x.id, r) ∈ m.handed → (x.id, r) ∈ m₁.handed := by
    intro r hr
    rw [hm] at hr
    refine (List.mem_append.mp hr).resolve_right fun hr => hnew (hlater _ ?_)
    exact List.mem_append_left _ (List.mem_map_of_mem (f := Prod.fst) hr)
  have hfailed : ∀ error, (x.id, error) ∈ m.failed → (x.id, error) ∈ m₁.failed := by
    intro error hf
    rw [hm] at hf
    refine (List.mem_append.mp hf).resolve_right fun hf => hnew (hlater _ ?_)
    exact List.mem_append_right _ (List.mem_map_of_mem (f := Prod.fst) hf)
  cases Exchange.goes_of_becomes (.of_done hd) with
  | unregisters hp => exact .missed hp (hs.attended.missed x hx _ hp)
  | givesUp hp => exact .late hp
  | @hears _ r hp hr =>
    rcases hs.posted.answers _ (Assoc.mem_of_lookup hr) with hh | ⟨⟨n, error⟩, hf, hfa⟩
    · exact .answered hp (hhanded r hh)
    · cases hfa
      rcases hs.posted.failed _ hf with ⟨text, rfl⟩ | rfl
      · exact .gone hp (hfailed _ hf)
      · exact .stopped hp (hfailed _ hf)

/-- **Nobody is left waiting on a lost stream.** Once the requests were failed that waited on it,
nobody begins a request on the instance any more, and every request that is under way ends with its
next step: it learns that the backend is gone, unless its response had come before, its time was up,
it could not be queued, or a shutdown had failed it. Only those that were not registered can still
come to wait. A shutdown has failed none of them if the instance is not stopped, unless somebody
began to stop it before its start. -/
theorem relieved_of_traced (h : Traced P s m) (hr : s.client.reader = .losing)
    (he : P s .read) (ha : s.act .read = some s₁) :
    (∀ s' m', After P s₁ (m ++ s.mail .read) s' m' → s₁.Relieved (m ++ s.mail .read) s') ∧
    ((∀ s e, P s e → StopsLater s e) → s₁.client.lifecycle ≠ .terminated →
      ∀ n, (n, Instance.stopError) ∉ (m ++ s.mail .read).failed) := by
  obtain ⟨l, hl, hlosing⟩ := exists_link_of_reader hr (by simp)
  have hb := hasBegun_of_link (wired_of_reachable h.reachable) hl
  have h₁ : Traced P s₁ (m ++ s.mail .read) := h.step he ha
  have hb₁ : s₁.hasBegun = true := hasBegun_of_act hb ha
  have hrank : 4 ≤ s₁.client.lifecycle.rank :=
    (rank_of_losing h.reachable hr).trans (rank_le_of_hasBegun hb ha)
  have hp : s₁.client.pending = [] := by
    rw [eq_of_read hl ha, hlosing]
    rfl
  refine ⟨fun s' m' h' => ?_, fun hP hl₁ n hn => hl₁ (terminated_of_stopped hP h₁ hn)⟩
  have hafter := aftermath_of_after h₁ hb₁ hrank hp h'
  have hs' := sound_of_traced (h'.traced h₁)
  refine ⟨act_ask_of_rank (hrank.trans (begun_of_after hb₁ h').2), hafter.exchanges,
    hafter.pending, fun x hx hnew => ?_⟩
  obtain ⟨i, a, hd⟩ := hafter.exists_done (sound_of_traced h₁) hs' hx hnew
  exact ⟨i, a, hd, hafter.freed hs' hx hnew hd⟩

/-- A request waits, and the stream is lost. -/
def severing : List Event := readying ++ [.ask "foo" none, .exchange 0, .lose]

def severed : Scene × Mail := (sample.follow {} severing).getD (sample, {})

/-- It learns that the backend is gone. -/
theorem relieved_of_traced_severed :
    ∃ s₁, severed.1.act .read = some s₁ ∧ s₁.client.lifecycle = .degraded ∧
      foo ∈ s₁.exchanges ∧ (∃ i, foo.step s₁.now s₁.client = .done i (.error s₁.client.gone)) ∧
      s₁.Relieved (severed.2 ++ severed.1.mail .read) s₁ := by
  have hrun : sample.follow {} severing = some (severed.1, severed.2) := by rfl
  have htraced : Traced StopsLater severed.1 severed.2 :=
    Traced.follow (.new _ _ _ _ _ _ _)
      (fun _ => by simp [severing, readying, connecting, StopsLater]) hrun
  have hact : ∃ s₁, severed.1.act .read = some s₁ ∧ s₁.client.lifecycle = .degraded ∧
      s₁.requests[0]? = some (.running foo) ∧
      ∃ i, foo.step s₁.now s₁.client = .done i (.error s₁.client.gone) :=
    ⟨_, rfl, rfl, rfl, _, rfl⟩
  obtain ⟨s₁, ha, hl, hfoo, hd⟩ := hact
  have hrelieved := (relieved_of_traced htraced rfl (by simp [StopsLater]) ha).1 s₁ _ .refl
  exact ⟨s₁, ha, hl, mem_exchanges_of_request hfoo, hd, hrelieved⟩

/-! ## Requests that end otherwise -/

/-- A response comes just before the stream is lost. -/
def overtaking : List Event :=
  readying ++ [.ask "foo" none, .exchange 0,
    .receive (.response (.success (.number 2) (.str "answered"))), .read, .lose, .read]

def overtaken : Scene := (sample.run overtaking).getD sample

/-- A request that was begun before the stream was lost is registered after that. -/
def slipping : List Event := readying ++ [.ask "foo" none, .lose, .read, .exchange 0]

def slipped : Scene := (sample.run slipping).getD sample

/-- An instance is stopped before its start, and what waits is failed after that. -/
def forestalling : List Event :=
  [.stop, .shutdown 0 fun _ => true, .start, .start, .start, .shutdown 0 fun _ => true,
    .shutdown 0 fun _ => true, .lose, .read]

def forestalled : Scene := (sample.run forestalling).getD sample

/-- The lost stream has been dealt with, and the instance is not stopped. -/
def IsCutOff (s : Scene) : Prop := s.client.lifecycle = .degraded ∧ s.client.isLost = true

/-- Once a lost stream is dealt with, a request can still end with a response or with the error of
a shutdown, and one that was not registered waits until its time is up. -/
theorem otherwise_than_gone :
    (sample.run overtaking = some overtaken ∧ IsCutOff overtaken ∧
      overtaken.requests[0]? = some (.running foo) ∧
      ∃ i, foo.step overtaken.now overtaken.client = .done i (.ok (.str "answered"))) ∧
    (sample.run slipping = some slipped ∧ IsCutOff slipped ∧
      slipped.requests[0]? = some (.running foo) ∧
      foo.step slipped.now slipped.client = .blocked (some 30000) ∧
      foo.step 30000 slipped.client = .next slipped.client { foo with phase := .giveUp }) ∧
    (sample.run forestalling = some forestalled ∧ IsCutOff forestalled ∧
      ∃ x y, forestalled.start = .running x ∧ x.phase = .handshake y ∧
        ∃ i, y.step forestalled.now forestalled.client =
          .done i (.error (.refused (-32800) "Backend shutdown"))) := by
  refine ⟨⟨by rfl, ⟨by rfl, by rfl⟩, by rfl, _, rfl⟩,
    ⟨by rfl, ⟨by rfl, by rfl⟩, by rfl, step_foo rfl slipped.now,
      step_foo rfl 30000⟩,
    ⟨by rfl, ⟨by rfl, by rfl⟩, _, _, rfl, rfl, _, rfl⟩⟩

end DiagnosticBroker.Scene
