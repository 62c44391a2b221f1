import DiagnosticBroker.Collector.Wait

/-!
# The steps of a wait

A wait only looks at its channel. `Wait.Steps` lists what one step can come to, with everything that
was seen on the way.

Results:
* `Wait.steps`: there is nothing else that a step can come to.
* `isOpen_of_timedOut`, `step_of_closed`, `done_of_pending`, `published_of_done`: how waits end.
* `Wait.eq_of_next`, `Wait.waiter_of_next`: what stays the same if a wait goes on.
-/

namespace DiagnosticBroker.Wait

variable {now : Time} {c c' : Collector} {w w' : Wait}

/-- What one step of a wait comes to. -/
inductive Steps (now : Time) (c : Collector) (w : Wait) : Step Collector Wait Outcome → Prop where
  | begins (hp : w.phase = .begin) :
      Steps now c w (.next c { w with phase := .snapshot (deadlineAfter now w.timeout) })
  /-- There is a snapshot, and nobody asks for a quiet period. -/
  | taken {deadline : Time} (hp : w.phase = .snapshot deadline)
      (hs : (c.channelOf w.waiter).snapshot.isPending = false) :
      Steps now c w (.done c (outcomeOf w.waiter.uri (c.channelOf w.waiter).snapshot))
  | seen {deadline : Time} (hp : w.phase = .snapshot deadline)
      (hs : (c.channelOf w.waiter).snapshot.isPending = false) :
      Steps now c w (.next c { w with
        phase := .quiet deadline (min (deadlineAfter now w.settle) deadline)
          (c.channelOf w.waiter).revision })
  /-- There is no snapshot, and there will not be one. -/
  | gone {deadline : Time} (hp : w.phase = .snapshot deadline)
      (hs : (c.channelOf w.waiter).snapshot.isPending = true)
      (hc : (c.channelOf w.waiter).closed = true) :
      Steps now c w (.done c (.error .notConnected))
  | late {deadline : Time} (hp : w.phase = .snapshot deadline)
      (hs : (c.channelOf w.waiter).snapshot.isPending = true)
      (hc : (c.channelOf w.waiter).closed = false) (hd : deadline ≤ now) :
      Steps now c w (.done c (.error w.timedOut))
  | replaced {deadline quietUntil : Time} {seen : Nat}
      (hp : w.phase = .quiet deadline quietUntil seen)
      (hr : (c.channelOf w.waiter).revision ≠ seen) :
      Steps now c w (.next c { w with phase := .snapshot deadline })
  | cutOff {deadline quietUntil : Time} {seen : Nat}
      (hp : w.phase = .quiet deadline quietUntil seen)
      (hr : (c.channelOf w.waiter).revision = seen)
      (hc : (c.channelOf w.waiter).closed = true) :
      Steps now c w (.done c (.error .notConnected))
  | settled {deadline quietUntil : Time} {seen : Nat}
      (hp : w.phase = .quiet deadline quietUntil seen)
      (hr : (c.channelOf w.waiter).revision = seen)
      (hc : (c.channelOf w.waiter).closed = false) (hq : quietUntil ≤ now) :
      Steps now c w (.done c (outcomeOf w.waiter.uri (c.channelOf w.waiter).snapshot))
  /-- There is nothing to do before the time that the wait is blocked to. -/
  | blocked {u : Time} (hc : (c.channelOf w.waiter).closed = false) (hu : now < u) :
      Steps now c w (.blocked (some u))

theorem steps (now : Time) (c : Collector) (w : Wait) : Steps now c w (w.step now c) := by
  cases hp : w.phase with
  | begin =>
    simp only [step, hp]
    exact .begins hp
  | snapshot deadline =>
    simp only [step, hp]
    cases hs : (c.channelOf w.waiter).snapshot.isPending with
    | false =>
      by_cases hz : w.settle = .zero
      · simp only [Bool.not_false, if_true, if_pos hz]
        exact .taken hp hs
      · simp only [Bool.not_false, if_true, if_neg hz]
        exact .seen hp hs
    | true =>
      cases hc : (c.channelOf w.waiter).closed with
      | true => exact .gone hp hs hc
      | false =>
        by_cases hd : deadline ≤ now
        · simp only [Bool.not_true, Bool.false_eq_true, if_false, if_pos hd]
          exact .late hp hs hc hd
        · simp only [Bool.not_true, Bool.false_eq_true, if_false, if_neg hd]
          exact .blocked hc (Nat.lt_of_not_le hd)
  | quiet deadline quietUntil seen =>
    simp only [step, hp]
    by_cases hr : (c.channelOf w.waiter).revision = seen
    · cases hc : (c.channelOf w.waiter).closed with
      | true =>
        simp only [ne_eq, hr, not_true_eq_false, if_false, if_true]
        exact .cutOff hp hr hc
      | false =>
        by_cases hq : quietUntil ≤ now
        · simp only [ne_eq, hr, not_true_eq_false, if_false, Bool.false_eq_true, if_pos hq]
          exact .settled hp hr hc hq
        · simp only [ne_eq, hr, not_true_eq_false, if_false, Bool.false_eq_true, if_neg hq]
          exact .blocked hc (Nat.lt_of_not_le hq)
    · simp only [ne_eq, hr, not_false_eq_true, if_true]
      exact .replaced hp hr

/-- A wait that goes on has left the collector alone. -/
theorem eq_of_next (h : w.step now c = .next c' w') : c' = c := by
  have hs := steps now c w
  rw [h] at hs
  cases hs <;> rfl

theorem step_ne_later (h : w.step now c = .later c' w') : False := by
  have hs := steps now c w
  rw [h] at hs
  cases hs

/-- A wait is about the same waiter all the time. -/
theorem waiter_of_next (h : w.step now c = .next c' w') : w'.waiter = w.waiter := by
  have hs := steps now c w
  rw [h] at hs
  cases hs <;> rfl

/-- Nobody times out on a closed channel. -/
theorem isOpen_of_timedOut {text : String}
    (h : w.step now c = .done c' (.error (.timedOut text))) :
    (c.channelOf w.waiter).closed = false := by
  have hs := steps now c w
  have hne : ∀ x, outcomeOf w.waiter.uri x ≠ .error (.timedOut text) := by
    intro x hx
    cases x <;> cases hx
  rw [h] at hs
  generalize hr : (Except.error (.timedOut text) : Outcome) = r at hs
  cases hs with
  | taken => exact absurd hr.symm (hne _)
  | gone => cases hr
  | late _ _ hc => exact hc
  | cutOff => cases hr
  | settled => exact absurd hr.symm (hne _)

/-- A wait on a closed channel goes on at once, and is not answered any more. -/
theorem step_of_closed (hc : (c.channelOf w.waiter).closed = true) :
    (w.step now c).isBlocked = false ∧ ∀ c' r, w.step now c = .done c' r →
      r = .error .notConnected ∨ (c.channelOf w.waiter).snapshot.isPending = false ∧
        r = outcomeOf w.waiter.uri (c.channelOf w.waiter).snapshot := by
  have hs := steps now c w
  generalize hx : w.step now c = x at hs
  cases hs with
  | begins | seen | replaced => exact ⟨rfl, fun c' r h => by cases h⟩
  | taken _ hp =>
    refine ⟨rfl, fun c' r h => ?_⟩
    cases h
    exact .inr ⟨hp, rfl⟩
  | gone | cutOff =>
    refine ⟨rfl, fun c' r h => ?_⟩
    cases h
    exact .inl rfl
  | late _ _ hopen | settled _ _ hopen | blocked hopen =>
    rw [hopen] at hc
    cases hc

/-- A wait on an empty channel ends with the time, or with the channel. -/
theorem done_of_pending {r : Outcome} (hp : (c.channelOf w.waiter).snapshot.isPending = true)
    (hq : ∀ deadline quietUntil seen, w.phase = .quiet deadline quietUntil seen →
      (c.channelOf w.waiter).revision ≠ seen) (h : w.step now c = .done c' r) :
    r = .error w.timedOut ∨ r = .error .notConnected ∧ (c.channelOf w.waiter).closed = true := by
  have hs := steps now c w
  rw [h] at hs
  cases hs with
  | taken _ hn =>
    rw [hp] at hn
    cases hn
  | gone _ _ hc => exact .inr ⟨rfl, hc⟩
  | late => exact .inl rfl
  | cutOff hw hr | settled hw hr => exact absurd hr (hq _ _ _ hw)

/-- A wait that succeeds has found a snapshot. -/
theorem published_of_done {ds : List Wire.Diagnostic}
    (hq : ∀ deadline quietUntil seen, w.phase = .quiet deadline quietUntil seen →
      (c.channelOf w.waiter).revision = seen →
        (c.channelOf w.waiter).snapshot.isPending = false)
    (h : w.step now c = .done c' (.ok ds)) :
    (c.channelOf w.waiter).snapshot = .published ds := by
  have hfound : ∀ x : Snapshot, x.isPending = false → .ok ds = outcomeOf w.waiter.uri x →
      x = .published ds := by
    intro x hx hds
    cases x with
    | published =>
      cases hds
      rfl
    | pending => cases hx
    | unreadable => cases hds
  have hs := steps now c w
  rw [h] at hs
  generalize hr : (Except.ok ds : Outcome) = r at hs
  cases hs with
  | taken _ hn => exact hfound _ hn hr
  | gone | late | cutOff => cases hr
  | settled hw hrev => exact hfound _ (hq _ _ _ hw hrev) hr

end DiagnosticBroker.Wait
