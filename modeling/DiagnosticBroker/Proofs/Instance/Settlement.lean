import DiagnosticBroker.Proofs.Instance.Lifecycle
import DiagnosticBroker.Proofs.Instance.StreamLoss

/-!
# What a stopped instance leaves behind

A shutdown closes the input of the backend first, and fails what waits last. In between it can be
given up, and then nobody else does what is left to do: later shutdowns and the reader take the
instance for one that is looked after. If every shutdown is seen through that has closed the input,
nobody is left waiting once they have all ended.

Results:
* `settled_of_act`: a stopped instance that has nothing waiting stays so.
* `overseen_of_reachable`: a stopped instance has nothing waiting, or a shutdown sees to it.
* `settled_of_reachable`: nobody waits on a stopped instance if no shutdown goes on.
-/

namespace DiagnosticBroker.Scene

open Instance (Exchange Answer Shutdown Start)

variable {P : Scene → Event → Prop} {s s' : Scene} {e : Event} {d : Mail}

/-- Only an attached instance is stopped, and no shutdown is given up that has closed the input. -/
def SeesThrough (s : Scene) : Event → Prop
  | .stop => s.client.links ≠ []
  | .leave n => ∀ x, s.shutdowns[n]? = some (.running x) → x.hasClosed = false
  | _ => True

/-! ## Nothing waits -/

/-- No document is waited for, and no request is in the table but to be taken out of it. -/
structure Settled (s : Scene) : Prop where
  subscriptions : ∀ u, s.client.collector.subscriptions.lookup u = none
  pending : ∀ x ∈ s.exchanges, x.id ∈ s.client.pending → ∃ f, x.phase = .unregister f

/-- Once nothing waits and frames cannot be queued, no request comes to wait. -/
theorem unregister_of_turn {t : Traffic} {xs : Multiset Exchange}
    (h : ∀ x ∈ s.exchanges, x.id ∈ s.client.pending → ∃ f, x.phase = .unregister f)
    (hids : (s.exchanges.map (·.id)).Nodup) (hr : 4 ≤ s.client.lifecycle.rank)
    (hc : s.client.canSend = false) (ht : s.Turn e d t xs) :
    ∀ x ∈ xs, x.id ∈ t.pending → ∃ f, x.phase = .unregister f := by
  cases ht with
  | stays | reads | ignores | discards | loses => exact h
  | begins _ hlt => exact absurd hr (Nat.not_le_of_lt hlt)
  | queues _ _ hsend =>
    rw [hc] at hsend
    cases hsend
  | drops hs | hears hs => exact fun y hy => h y (hs ▸ Multiset.mem_cons_of_mem hy)
  | @misses x rest f hs =>
    -- The table gets an entry again, but whoever made it takes it out with the next step.
    refine Multiset.forall_mem_cons.mpr ⟨fun _ => ⟨f, rfl⟩, fun y hy hmem => ?_⟩
    obtain ⟨hy, hne⟩ := id_ne_of_mem hids hs hy
    refine h y hy ((List.mem_append.mp hmem).resolve_right fun hmem => ?_)
    exact hne (List.mem_singleton.mp hmem)
  | @expires x rest deadline hs hp =>
    refine Multiset.forall_mem_cons.mpr ⟨fun hmem => ?_, fun y hy => ?_⟩
    · obtain ⟨f, hf⟩ := h x (hs ▸ Multiset.mem_cons_self x rest) hmem
      cases hp.symm.trans hf
    · exact h y (hs ▸ Multiset.mem_cons_of_mem hy)
  | forgets hs =>
    exact fun y hy hmem => h y (hs ▸ Multiset.mem_cons_of_mem hy) (List.mem_of_mem_erase hmem)
  | hands => exact fun y hy hmem => h y hy (List.mem_of_mem_erase hmem)
  | fails => exact fun y _ hmem => by cases hmem

theorem settled_of_act (h : s.Settled) (hr : Reachable P s) (hl : s.client.lifecycle = .terminated)
    (hc : s.client.canSend = false) (ha : s.act e = some s') : s'.Settled := by
  have hw := wired_of_reachable hr
  obtain ⟨m, hm⟩ := exists_traced hr
  refine ⟨lookup_of_effect hc h.subscriptions (effect_of_act hw ha), ?_⟩
  exact unregister_of_turn h.pending (sound_of_traced hm).ids.nodup (by rw [hl]; decide) hc
    (turn_of_act hw ha)

/-! ## Shutdowns that go on -/

/-- A shutdown goes on that has closed the input. -/
def IsStopping (s : Scene) : Prop :=
  ∃ (n : Nat) (x : Shutdown), s.shutdowns[n]? = some (.running x) ∧ x.hasClosed = true

/-- A shutdown that has closed the input goes on until it fails what waits. -/
theorem IsStopping.act_cases (h : s.IsStopping) (hp : s.SeesThrough e) (ha : s.act e = some s') :
    s'.IsStopping ∨ s'.client.pending = [] ∧
      ∀ u, s'.client.collector.subscriptions.lookup u = none := by
  obtain ⟨n, x, hn, hx⟩ := h
  cases happens_of_act ha with
  | stops =>
    refine .inl ⟨n, x, ?_, hx⟩
    rw [← hn]
    exact List.getElem?_append_left (List.getElem?_eq_some_iff.mp hn).1
  | @leaves k y hk =>
    refine .inl ⟨n, x, ?_, hx⟩
    by_cases hkn : k = n
    · -- This one has closed the input, and is not given up.
      subst hkn
      rw [hp x hn] at hx
      cases hx
    · exact (List.getElem?_set_ne hkn).trans hn
  | @shutsDown k exited y i t hk hg =>
    by_cases hkn : k = n
    · subst hkn
      cases hn.symm.trans hk
      have hset : ∀ u, (s.shutdowns.set k u)[k]? = some u := fun u =>
        List.getElem?_set_self (List.getElem?_eq_some_iff.mp hn).1
      cases Shutdown.goes_of_becomes hg with
      | drains _ _ _ hy => exact .inl ⟨k, _, hset _, hy⟩
      | fails => exact .inr ⟨rfl, fun _ => rfl⟩
      | leaves | asks | closes | goesOn | closesAnswered | closesLate => cases hx
    · exact .inl ⟨n, x, (List.getElem?_set_ne hkn).trans hn, hx⟩
  | _ => exact .inl ⟨n, x, hn, hx⟩

/-- A shutdown that has closed the input goes on until nothing waits. -/
theorem IsStopping.act (h : s.IsStopping) (hp : s.SeesThrough e) (ha : s.act e = some s') :
    s'.IsStopping ∨ s'.Settled := by
  refine (h.act_cases hp ha).imp_right fun ⟨hnil, hnone⟩ => ⟨hnone, fun _ _ hmem => ?_⟩
  rw [hnil] at hmem
  cases hmem

/-! ## Runs in which shutdowns are seen through -/

/-- What is known of an instance whose shutdowns are seen through. -/
structure Overseen (s : Scene) : Prop where
  attached : s.shutdowns ≠ [] → s.client.links ≠ []
  cut : s.client.lifecycle = .terminated → s.client.IsCut
  settled : s.client.lifecycle = .terminated → s.IsStopping ∨ s.Settled

theorem attached_of_act (h : s.shutdowns ≠ [] → s.client.links ≠ []) (hw : s.Wired)
    (hp : s.SeesThrough e) (ha : s.act e = some s') :
    s'.shutdowns ≠ [] → s'.client.links ≠ [] := by
  intro hs'
  refine attached_of_effect (effect_of_act hw ha) ?_
  cases happens_of_act ha with
  | stops => exact hp
  | leaves hn | shutsDown hn => exact h (by rintro hs; simp [hs] at hn)
  | _ => exact h hs'

/-- Only a shutdown stops an instance: it closes the input, and goes on. -/
theorem closes_of_act (hl : s.client.lifecycle ≠ .terminated)
    (hl' : s'.client.lifecycle = .terminated) (ha : s.act e = some s') :
    s'.IsStopping ∧ s'.client.outgoing = none ∧ s.shutdowns ≠ [] := by
  cases ages_of_act ha with
  | wanes h =>
    rcases h.lifecycle with heq | ⟨-, heq⟩
    · exact absurd (heq.symm.trans hl') hl
    · cases heq.symm.trans hl'
  | begins _ _ _ heq => cases heq.symm.trans hl'
  | keeps _ heq => exact absurd (heq.symm.trans hl') hl
  | advances _ heq => rcases heq with ⟨-, heq⟩ | ⟨-, heq⟩ <;> cases heq.symm.trans hl'
  | @closes n x y hn hx hy hs _ ho =>
    refine ⟨⟨n, y, ?_, hy⟩, ho, by rintro hnil; simp [hnil] at hn⟩
    rw [hs]
    exact List.getElem?_set_self (List.getElem?_eq_some_iff.mp hn).1

/-- An instance comes to be stopped by a shutdown that closes the input, and goes on. -/
theorem stopping_of_act (hl : s.client.lifecycle ≠ .terminated)
    (hl' : s'.client.lifecycle = .terminated) (ha : s.act e = some s') :
    s'.IsStopping ∧ s'.client.canSend = false ∧ s.shutdowns ≠ [] := by
  obtain ⟨hstops, ho, hne⟩ := closes_of_act hl hl' ha
  exact ⟨hstops, by rw [Instance.canSend, ho], hne⟩

theorem Overseen.act (h : s.Overseen) (hr : Reachable P s) (hp : s.SeesThrough e)
    (ha : s.act e = some s') : s'.Overseen := by
  have hw := wired_of_reachable hr
  have he := effect_of_act hw ha
  refine ⟨attached_of_act h.attached hw hp ha, fun hl' => ?_, fun hl' => ?_⟩
  · by_cases hl : s.client.lifecycle = .terminated
    · exact cut_of_effect he (h.cut hl)
    · obtain ⟨-, hc, hs⟩ := stopping_of_act hl hl' ha
      exact ⟨attached_of_effect he (h.attached hs), hc⟩
  · by_cases hl : s.client.lifecycle = .terminated
    · rcases h.settled hl with hstops | hsettled
      · exact hstops.act hp ha
      · exact .inr (settled_of_act hsettled hr hl (h.cut hl).2 ha)
    · exact .inl (stopping_of_act hl hl' ha).1

/-- **Oversight.** A stopped instance has nothing waiting, or a shutdown sees to it. -/
theorem overseen_of_reachable (hP : ∀ s e, P s e → s.SeesThrough e) (h : Reachable P s) :
    s.Overseen := by
  induction h with
  | new backend budget roots directory launch isProcess clientProcess =>
    exact ⟨fun hs => absurd rfl hs, fun hl => (by cases hl), fun hl => (by cases hl)⟩
  | step h he ha ih => exact ih.act h (hP _ _ he) ha

/-! ## Nobody is left -/

/-- **Settlement.** If an instance is stopped only once it is attached, and every shutdown is seen
through that has closed the input, then nobody waits on a stopped instance on which no shutdown goes
on: no document has a subscription; no request is in the table, but one that could not be queued and
is about to be taken out; every request goes on at once, one that waits ends with its next step, and
every wait for diagnostics goes on at once. -/
theorem settled_of_reachable (hP : ∀ s e, P s e → s.SeesThrough e) (h : Reachable P s)
    (hl : s.client.lifecycle = .terminated) (hs : ∀ t ∈ s.shutdowns, t.rest? = none) :
    s.client.collector.subscriptions = [] ∧
    (∀ x ∈ s.exchanges, x.id ∈ s.client.pending → ∃ f, x.phase = .unregister f) ∧
    (∀ x ∈ s.exchanges, (x.step s.now s.client).isBlocked = false ∧
      ∀ deadline, x.phase = .waiting deadline → ∃ i a, x.step s.now s.client = .done i a) ∧
    ∀ w : Wait, (w.step s.now s.client.collector).isBlocked = false ∧
      ∀ c r, w.step s.now s.client.collector = .done c r →
        r = .error .notConnected ∨
          (s.client.collector.channelOf w.waiter).snapshot.isPending = false ∧
            r = Wait.outcomeOf w.waiter.uri (s.client.collector.channelOf w.waiter).snapshot := by
  have hsettled : s.Settled := by
    refine ((overseen_of_reachable hP h).settled hl).resolve_left ?_
    rintro ⟨n, x, hn, -⟩
    cases hs _ (List.mem_of_getElem? hn)
  obtain ⟨m, hm⟩ := exists_traced h
  have hanswered : ∀ x ∈ s.exchanges, ∀ deadline, x.phase = .waiting deadline →
      ∃ r, s.client.answers.lookup x.id = some r := by
    intro x hx deadline hp
    refine ((sound_of_traced hm).attended.waits x hx deadline hp).resolve_left fun hmem => ?_
    obtain ⟨f, hf⟩ := hsettled.pending x hx hmem
    cases hp.symm.trans hf
  refine ⟨?_, hsettled.pending, fun x hx => ⟨?_, fun deadline hp => ?_⟩, fun w => ?_⟩
  · cases hnil : s.client.collector.subscriptions with
    | nil => rfl
    | cons entry rest =>
      have hnone := hsettled.subscriptions entry.1
      simp [hnil] at hnone
  · exact Exchange.isBlocked_of_answered (hanswered x hx)
  · obtain ⟨r, hr⟩ := hanswered x hx deadline hp
    obtain ⟨i, hd⟩ := Exchange.done_of_answered hp hr
    exact ⟨i, _, hd⟩
  · refine Wait.step_of_closed ?_
    rw [Collector.closed_channelOf]
    by_contra hopen
    obtain ⟨u, sub, hsub, -⟩ :=
      (kept_of_reachable h).accounts.subscribed _ (by simpa using hopen)
    rw [hsettled.subscriptions u] at hsub
    cases hsub

/-- A document and a request wait on an instance that is ready. -/
def occupying : List Event :=
  readying ++ [.opens "a" "python" "x", .wait 0 (.ofMillis 1000) .zero, .look 0, .ask "foo" none,
    .exchange 0]

def occupied : Scene := (sample.run occupying).getD sample

/-- A shutdown asks the backend, is agreed to, and closes the input. -/
def asking : List Event :=
  [.shutdown 0 fun _ => true, .shutdown 0 fun _ => true,
    .receive (.response (.success (.number 3) .null)), .read, .shutdown 0 fun _ => true]

/-- What is queued is written, and the shutdown comes to its end. -/
def draining : List Event :=
  [.take, .written, .take, .written, .take, .written, .take, .written, .take, .written, .take,
    .written, .finish, .shutdown 0 fun _ => true, .shutdown 0 fun _ => true,
    .shutdown 0 fun _ => true]

def dismissed : Scene := (occupied.run (.stop :: asking ++ draining)).getD sample

/-- The wait for the diagnostics of the document. -/
def waitingForA : Wait := ⟨⟨"a", 1, 0⟩, .ofMillis 1000, .zero, .snapshot 1000⟩

/-- Neither the request nor the document waits after the shutdown. -/
theorem settled_of_reachable_dismissed :
    dismissed.client.lifecycle = .terminated ∧ dismissed.requests[0]? = some (.running foo) ∧
      (∃ h, dismissed.holders[0]? = some h ∧ h.phase = .waiting waitingForA) ∧
      (∃ i a, foo.step dismissed.now dismissed.client = .done i a) ∧
      (waitingForA.step dismissed.now dismissed.client.collector).isBlocked = false := by
  have hfirst : sample.run occupying = some occupied := by rfl
  have hstop : ∃ s, occupied.act .stop = some s ∧ occupied.client.links ≠ [] ∧
      s.run (asking ++ draining) = some dismissed := ⟨_, rfl, by decide, by rfl⟩
  obtain ⟨s, hact, hlinks, hrest⟩ := hstop
  have hoccupied : Reachable SeesThrough occupied :=
    Reachable.of_run (.new _ _ _ _ _ _ _)
      (fun _ => by simp [occupying, readying, connecting, SeesThrough]) hfirst
  have hdismissed : Reachable SeesThrough dismissed :=
    Reachable.of_run (hoccupied.step (e := .stop) hlinks hact)
      (fun _ => by simp [asking, draining, SeesThrough]) hrest
  have hrequest : dismissed.requests[0]? = some (.running foo) := by rfl
  have hholder : ∃ h, dismissed.holders[0]? = some h ∧ h.phase = .waiting waitingForA :=
    ⟨_, rfl, rfl⟩
  have hended : ∀ t ∈ dismissed.shutdowns, t.rest? = none := by decide
  have hsettled := settled_of_reachable (fun _ _ => id) hdismissed rfl hended
  exact ⟨rfl, hrequest, hholder,
    (hsettled.2.2.1 foo (mem_exchanges_of_request hrequest)).2 _ rfl, (hsettled.2.2.2 waitingForA).1⟩

/-- Whoever stops the instance is gone once the input is closed, and somebody else stops it, too. -/
def deserting : List Event := .stop :: asking ++ [.leave 0, .stop, .shutdown 1 fun _ => true]

def deserted : Scene := (occupied.run deserting).getD sample

/-- If the shutdown is given up that has closed the input, the next one leaves at once, and the
request and the document wait on the stopped instance until their time is up. -/
theorem blocked_when_deserted :
    occupied.run deserting = some deserted ∧ deserted.client.lifecycle = .terminated ∧
      (∀ t ∈ deserted.shutdowns, t.rest? = none) ∧
      deserted.requests[0]? = some (.running foo) ∧ deserted.client.pending = [2] ∧
      foo.step deserted.now deserted.client = .blocked (some 30000) ∧
      deserted.client.collector.isAwaited "a" = true ∧
      waitingForA.step deserted.now deserted.client.collector = .blocked (some 1000) :=
  ⟨by rfl, rfl, by decide, rfl, rfl, step_foo rfl deserted.now, rfl, by rfl⟩

end DiagnosticBroker.Scene
