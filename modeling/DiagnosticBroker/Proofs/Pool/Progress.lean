import DiagnosticBroker.Proofs.Pool.Instances

/-!
# Starts come to an end

Whatever a start waits for comes without the help of any other visitor: its launch ends, the clock
reaches a deadline, or the one visitor who holds on to the slots lets them go. Every step of the
start brings it nearer to its end, which `StartJob.effort` measures, so it ends after finitely many
steps, and whoever is parked on it can then go on.

Results:
* `effort_of_goes`: a step of a start leaves less to do.
* `frees_of_orderly`: nobody holds on to the slots for ever.
* `ends_of_orderly`: a start can always be brought to its end without any other visitor.
* `wakes_of_parked`: whoever is parked on a start can go on, or can after the start has ended.
-/

namespace DiagnosticBroker

open Pool (Thins)

/-! ## Instances -/

namespace Instance

/-- How many steps a request may still take. -/
def Exchange.effort (x : Exchange) : Nat :=
  match x.phase with
  | .register => 3
  | .waiting _ => 2
  | .unregister _ => 1
  | .giveUp => 1

/-- How many steps the start of an instance may still take. -/
def Start.effort (s : Start) : Nat :=
  match s.phase with
  | .begin => 10
  | .attach => 9
  | .handshake x => 5 + x.effort
  | .record _ => 4
  | .confirm => 3
  | .announce => 2
  | .complete => 1

/-- How many steps a shutdown may still take. -/
def Shutdown.effort : Shutdown → Nat
  | .begin => 9
  | .asking x _ => 4 + x.effort
  | .draining _ _ => 4
  | .reaping => 3
  | .exiting _ _ => 2
  | .failing => 1

theorem Exchange.effort_pos (x : Exchange) : 0 < x.effort := by
  unfold effort
  cases x.phase <;> simp

theorem Shutdown.effort_pos (s : Shutdown) : 0 < s.effort := by
  unfold effort
  cases s with
  | asking x deadline =>
    have hpos := x.effort_pos
    simp only
    omega
  | begin | draining | reaping | exiting | failing => simp

theorem effort_of_exchange {now : Time} {i j : Instance} {x x' : Exchange}
    (h : (x.step now i).Becomes j (.running x')) : x'.effort < x.effort := by
  unfold Exchange.step at h
  unfold Exchange.effort
  cases hp : x.phase <;> simp only [hp] at h ⊢
  case register =>
    split at h
    · cases h
      exact Nat.lt_succ_self 2
    · cases h
      exact Nat.lt_of_succ_lt (Nat.lt_succ_self 2)
  case unregister f => cases h
  case waiting deadline =>
    split at h
    · cases h
    · split_ifs at h
      · cases h
        exact Nat.lt_succ_self 1
      · cases h
  case giveUp => cases h

theorem effort_begin {i j : Instance} {method : String} {params : Option Json} {x : Exchange}
    (h : Exchange.start i method params = (j, .ok x)) : x.effort = 3 := by
  unfold Exchange.start at h
  split at h <;> cases h
  all_goals rfl

theorem effort_start {now : Time} {i j : Instance} {s s' : Start}
    (h : (s.step now i).Becomes j (.running s')) : s'.effort < s.effort := by
  unfold Start.step at h
  unfold Start.effort
  cases hp : s.phase <;> simp only [hp] at h ⊢
  case begin =>
    cases h
    exact Nat.lt_succ_self 9
  case attach =>
    unfold Start.attach at h
    simp only at h
    split at h <;> rename_i heq
    · cases h
      have hx := effort_begin heq
      simp only
      omega
    · cases h
  case handshake x =>
    rcases h.of_within with ⟨x', hx, ht⟩ | ⟨st, a, hx, h⟩
    · cases ht
      have hlt := effort_of_exchange hx
      simp only
      omega
    · have hpos := x.effort_pos
      unfold Start.answered at h
      cases a with
      | error f => cases h
      | ok r =>
        simp only at h
        split at h <;> cases h
        simp only
        omega
  case record r =>
    cases h
    exact Nat.lt_succ_self 3
  case confirm =>
    split at h <;> cases h
    exact Nat.lt_succ_self 2
  case announce =>
    split at h <;> cases h
    exact Nat.lt_succ_self 1
  case complete => split at h <;> cases h

theorem effort_close {now : Time} {i j : Instance} {s : Shutdown}
    (h : (Shutdown.close now i).Becomes j (.running s)) : s.effort ≤ 4 := by
  unfold Shutdown.close at h
  simp only at h
  split at h <;> cases h
  · exact Nat.le_refl 4
  · exact Nat.le_succ 3

theorem effort_shutdown {exited : Nat → Bool} {now : Time} {i j : Instance} {s s' : Shutdown}
    (h : (s.step exited now i).Becomes j (.running s')) : s'.effort < s.effort := by
  cases s with
  | begin =>
    have hall : Shutdown.begin.effort = 9 := rfl
    simp only [Shutdown.step] at h
    split_ifs at h
    · cases h
    · split at h <;> rename_i heq
      · cases h
        have hx := effort_begin heq
        simp only [Shutdown.effort]
        omega
      · have hle := effort_close h
        omega
    · have hle := effort_close h
      omega
  | asking x deadline =>
    have hall : (Shutdown.asking x deadline).effort = 4 + x.effort := rfl
    have hpos := x.effort_pos
    rcases h.of_orAt with h | h
    · rcases h.of_within with ⟨x', hx, ht⟩ | ⟨k, a, hx, h⟩
      · cases ht
        have hlt := effort_of_exchange hx
        simp only [Shutdown.effort]
        omega
      · have hle : s'.effort ≤ 4 := by
          cases a with
          | ok r => exact effort_close h
          | error f => exact effort_close h
        omega
    · have hle := effort_close h
      omega
  | draining k deadline =>
    simp only [Shutdown.step] at h
    split_ifs at h <;> cases h
    exact Nat.lt_succ_self 3
  | reaping =>
    simp only [Shutdown.step] at h
    split at h <;> cases h
    · exact Nat.lt_succ_self 2
    · exact Nat.lt_of_succ_lt (Nat.lt_succ_self 2)
  | exiting p deadline =>
    simp only [Shutdown.step] at h
    split_ifs at h <;> cases h
    exact Nat.lt_succ_self 1
  | failing => cases h

/-! ### Deadlines -/

theorem isBlocked_within {σ ρ π α β : Type} {s : Step σ ρ α} {rest : ρ → π}
    {finish : σ → α → Step σ π β} (h : s.isBlocked = false)
    (hf : ∀ st a, (finish st a).isBlocked = false) : (s.within rest finish).isBlocked = false := by
  cases s with
  | blocked u => cases h
  | next | later => rfl
  | done st a => exact hf st a

/-- A request waits no longer than to its deadline. -/
theorem free_exchange (i : Instance) (x : Exchange) :
    ∃ deadline, ∀ now, deadline ≤ now → (x.step now i).isBlocked = false := by
  unfold Exchange.step
  cases x.phase with
  | register =>
    refine ⟨0, fun now _ => ?_⟩
    simp only
    split <;> rfl
  | unregister f => exact ⟨0, fun _ _ => rfl⟩
  | waiting deadline =>
    refine ⟨deadline, fun now hnow => ?_⟩
    simp only
    split
    · rfl
    · rw [if_pos hnow]
      rfl
  | giveUp => exact ⟨0, fun _ _ => rfl⟩

/-- The start of an instance waits no longer than to a deadline. -/
theorem free_start (i : Instance) (s : Start) :
    ∃ deadline, ∀ now, deadline ≤ now → (s.step now i).isBlocked = false := by
  unfold Start.step
  cases s.phase with
  | begin => exact ⟨0, fun _ _ => rfl⟩
  | attach =>
    refine ⟨0, fun now _ => ?_⟩
    unfold Start.attach
    simp only
    split <;> rfl
  | handshake x =>
    obtain ⟨deadline, hx⟩ := free_exchange i x
    refine ⟨deadline, fun now hnow => isBlocked_within (hx now hnow) fun j a => ?_⟩
    unfold Start.answered
    cases a with
    | error f => rfl
    | ok r =>
      simp only
      split <;> rfl
  | record r => exact ⟨0, fun _ _ => rfl⟩
  | confirm | announce | complete =>
    refine ⟨0, fun _ _ => ?_⟩
    simp only
    split <;> rfl

theorem free_close (now : Time) (i : Instance) : (Shutdown.close now i).isBlocked = false := by
  unfold Shutdown.close
  simp only
  split <;> rfl

/-- A shutdown waits no longer than to a deadline. -/
theorem free_shutdown (exited : Nat → Bool) (i : Instance) (s : Shutdown) :
    ∃ deadline, ∀ now, deadline ≤ now → (s.step exited now i).isBlocked = false := by
  cases s with
  | begin =>
    refine ⟨0, fun now _ => ?_⟩
    simp only [Shutdown.step]
    split_ifs
    · rfl
    · split
      · rfl
      · exact free_close now _
    · exact free_close now i
  | asking x deadline =>
    refine ⟨deadline, fun now hnow => ?_⟩
    simp only [Shutdown.step]
    cases hs : (x.step now i).within (fun x => Shutdown.asking x deadline) (Shutdown.answered now) with
    | blocked u =>
      simp only [Step.orAt, if_pos hnow]
      exact free_close now i
    | next | later | done => rfl
  | draining k deadline =>
    refine ⟨deadline, fun now hnow => ?_⟩
    simp [Shutdown.step, hnow, Step.isBlocked]
  | reaping =>
    refine ⟨0, fun now _ => ?_⟩
    simp only [Shutdown.step]
    split <;> rfl
  | exiting p deadline =>
    refine ⟨deadline, fun now hnow => ?_⟩
    simp [Shutdown.step, hnow, Step.isBlocked]
  | failing => exact ⟨0, fun _ _ => rfl⟩

end Instance

/-! ## Starts -/

namespace StartJob

variable {w : Surroundings} {p q : Pool} {n : Nat} {j j' : StartJob}

/-- How many steps a start may still take, before which an attempt has at most thirty. -/
def effort (b : Budget) (j : StartJob) : Nat :=
  match j.phase with
  | .begin => max 1 b.startAttempts * 30 + 30
  | .pausing k _ => (j.policy.maxAttempts - k) * 30 + 24
  | .launching k _ => (j.policy.maxAttempts - k) * 30 + 23
  | .starting k _ s => (j.policy.maxAttempts - k) * 30 + (12 + s.effort)
  | .stopping k _ s _ => (j.policy.maxAttempts - k) * 30 + (2 + s.effort)
  | .marking => 2
  | .settling _ => 1
  | .crashed _ => 1
  | .over _ => 0
  | .cleared _ => 0

/-- After a failed attempt there is less to do than with one step of it left. -/
theorem effort_afterFailure (b : Budget) (now : Time) (j : StartJob) (k : Nat) (f : Fault) :
    (afterFailure now j k f).effort b < (j.policy.maxAttempts - k) * 30 + 3 := by
  unfold afterFailure Backoff.next
  split <;> rename_i h
  · split_ifs at h with hnext
    cases h
    obtain ⟨-, hlt⟩ := Bool.and_eq_true_iff.mp hnext
    have hlt := of_decide_eq_true hlt
    simp only [effort]
    omega
  · cases f.isRecoverable
    · simp only [effort, Bool.false_eq_true, if_false]
      omega
    · simp only [effort, if_true]
      omega

/-- **Effort.** Every step of a start leaves less to do. -/
theorem effort_of_goes (h : j.Goes w p n q j') : j'.effort p.budget < j.effort p.budget := by
  cases h with
  | begins hp =>
    unfold decide
    simp only [effort, hp, beginAttempt]
    split_ifs
    · simp only [Backoff.once]
      omega
    · simp only [Budget.startBackoff]
      omega
  | connects hp =>
    simp only [effort, hp, Instance.Start.effort]
    omega
  | @refused k l hp f =>
    have hlt := effort_afterFailure p.budget w.now j k f
    simp only [effort, hp] at hlt ⊢
    omega
  | crashes hp =>
    simp only [effort, hp]
    omega
  | starts hp hx hs =>
    have hlt := Instance.effort_start hs
    simp only [effort, hp]
    omega
  | succeeds hp hx hs =>
    simp only [effort, hp]
    omega
  | fails hp hx hs =>
    simp only [effort, hp, Instance.Shutdown.effort]
    omega
  | stops hp hx hs =>
    have hlt := Instance.effort_shutdown hs
    simp only [effort, hp]
    omega
  | @stopped k i s x y f hp hx hs =>
    have hlt := effort_afterFailure p.budget w.now j k f
    have hpos := s.effort_pos
    simp only [effort, hp] at hlt ⊢
    omega
  | resumes hp =>
    simp only [effort, hp, beginAttempt]
    omega
  | marks hp =>
    simp only [effort, hp]
    omega
  | settles hp hh =>
    simp only [effort, hp, settle]
    omega
  | clears hp hh =>
    simp only [effort, hp, clear]
    omega

/-! ### What a start waits for -/

theorem isBlocked_onInstance {ρ α : Type} {i : Nat} {x : Instance}
    {f : Instance → Step Instance ρ α} (hx : p.instance? i = some x)
    (h : (f x).isBlocked = false) : (p.onInstance i f).isBlocked = false := by
  unfold Pool.onInstance
  rw [hx]
  simp only
  cases hs : f x with
  | blocked u => rw [hs] at h; cases h
  | next | later | done => rfl

theorem free_launching {k l : Nat} (hj : p.start? n = some j) (hp : j.phase = .launching k l)
    (hl : p.launchOutcome? l ≠ none) : (step w p n).isBlocked = false := by
  simp only [step, hj, stepOf, hp]
  cases ho : p.launchOutcome? l with
  | none => exact absurd ho hl
  | some o => cases o <;> rfl

theorem free_starting {k i : Nat} {s : Instance.Start} {x : Instance} (hj : p.start? n = some j)
    (hp : j.phase = .starting k i s) (hx : p.instance? i = some x)
    (hs : (s.step w.now x).isBlocked = false) : (step w p n).isBlocked = false := by
  have hfree := isBlocked_onInstance (f := fun x => s.step w.now x) hx hs
  simp only [step, hj, stepOf, hp]
  split <;> rename_i heq
  · rw [heq] at hfree
    cases hfree
  all_goals rfl

theorem free_stopping {k i : Nat} {s : Instance.Shutdown} {f : Fault} {x : Instance}
    (hj : p.start? n = some j) (hp : j.phase = .stopping k i s f) (hx : p.instance? i = some x)
    (hs : (s.step w.exited w.now x).isBlocked = false) : (step w p n).isBlocked = false := by
  have hfree := isBlocked_onInstance (f := fun x => s.step w.exited w.now x) hx hs
  simp only [step, hj, stepOf, hp]
  split <;> rename_i heq
  · rw [heq] at hfree
    cases hfree
  all_goals rfl

theorem free_pausing {k : Nat} {deadline : Time} (hj : p.start? n = some j)
    (hp : j.phase = .pausing k deadline) (hd : deadline ≤ w.now) :
    (step w p n).isBlocked = false := by
  simp only [step, hj, stepOf, hp, if_pos hd]
  rfl

theorem free_settling (hj : p.start? n = some j) (hh : p.held = false)
    (hp : (∃ r, j.phase = .settling r) ∨ ∃ cause, j.phase = .crashed cause) :
    (step w p n).isBlocked = false := by
  rcases hp with ⟨r, hp⟩ | ⟨cause, hp⟩ <;> simp only [step, hj, stepOf, hp, hh] <;> rfl

theorem free_working (hj : p.start? n = some j) (hp : j.phase = .begin ∨ j.phase = .marking) :
    (step w p n).isBlocked = false := by
  rcases hp with hp | hp <;> simp only [step, hj, stepOf, hp] <;> rfl

end StartJob

/-! ## Without any other visitor -/

namespace Depot

variable {P : Depot → Event → Prop} {s t : Depot} {n j : Nat} {a : StartJob} {v : Visitor}

/-- What a start waits for and comes without the help of any other visitor: the end of a launch, the
passing of time, the steps of whoever holds on to the slots; and the steps of the start itself. -/
def Unaided (j : Nat) (s : Depot) : Event → Prop
  | .elapse _ _ => True
  | .land _ _ => True
  | .start k _ => k = j
  | .go n _ _ => s.askedBy? n ≠ none
  | _ => False

/-- A start comes nearer to its end by what comes without any other visitor. -/
def Nears (s : Depot) (j : Nat) : Prop :=
  ∀ a, s.pool.start? j = some a → a.isUnderWay = true →
    ∃ t b, Run (Unaided j) s t ∧ t.pool.start? j = some b ∧
      b.effort t.pool.budget < a.effort s.pool.budget

theorem Nears.of_run (hr : Run (Unaided j) s t) (hj : t.pool.start? j = s.pool.start? j)
    (hb : t.pool.budget = s.pool.budget) (h : t.Nears j) : s.Nears j := by
  intro a ha hw
  obtain ⟨u, b, hu, hb', hlt⟩ := h a (hj.trans ha) hw
  rw [hb] at hlt
  exact ⟨u, b, hr.trans hu, hb', hlt⟩

theorem nears_of_step (exited : Nat → Bool)
    (h : (StartJob.step (s.surroundings exited) s.pool j).isBlocked = false) : s.Nears j := by
  intro a ha hw
  obtain ⟨t, ht⟩ : ∃ t, s.act (.start j exited) = some t := by
    simp only [act]
    cases hs : StartJob.step (s.surroundings exited) s.pool j with
    | blocked u => rw [hs] at h; cases h
    | next p | later p | done p => exact ⟨_, rfl⟩
  have hrun : Run (Unaided j) s t := Run.refl.step (e := .start j exited) rfl ht
  have hhappens := happens_of_act ht
  have hbudget := (grows_of_happens hhappens).budget
  cases hhappens with
  | rests _ hr =>
    rw [hr a ha] at hw
    cases hw
  | @starts _ _ a' b q ha' hg =>
    rw [ha] at ha'
    cases ha'
    have hlt := StartJob.effort_of_goes hg
    refine ⟨_, b, hrun, ?_, by rwa [hbudget]⟩
    exact (hg.start?_setStart ha j).trans (if_pos rfl)

theorem run_elapse (s : Depot) (d : Nat) : Run (Unaided j) s { s with now := s.now + d } := by
  have helapse : s.act (.elapse d 0) = some { s with now := s.now + d } := rfl
  exact Run.refl.step (e := .elapse d 0) trivial helapse

/-- What is free from some time on, is free after enough time. -/
theorem nears_of_deadline
    (h : ∃ deadline, ∀ now, deadline ≤ now →
      (StartJob.step ⟨now, fun _ => false, s.isProcess, s.clientProcess⟩
        s.pool j).isBlocked = false) :
    s.Nears j := by
  obtain ⟨deadline, hfree⟩ := h
  have hlater : Nears { s with now := s.now + deadline } j :=
    nears_of_step (fun _ => false) (hfree _ (Nat.le_add_left ..))
  exact hlater.of_run (run_elapse s deadline) rfl rfl

/-- A step of whoever holds on to the slots. -/
theorem run_go {e e' : Errand} {q : Pool} (hv : s.visitors[n]? = some v) (hb : v.state = .busy e)
    (ha : e.asked? ≠ none)
    (hs : e.step (s.surroundings fun _ => false) (.ok ()) s.pool = .next q e') :
    Run (Unaided j) s ({ s with pool := q }.setVisitor n v (.busy e')) := by
  refine Run.refl.step (e := .go n (fun _ => false) (.ok ())) ?_ ?_
  · rw [Unaided, askedBy?_of_busy hv hb]
    exact ha
  · simp only [act, hv, hb, hs, Option.bind_eq_bind, Option.bind_some]

/-- Whoever holds on to the slots can let them go. With every step there are fewer of them to be looked
at. -/
theorem run_frees {choice : Stop.Choice} {count : Nat} {x : Stop.Search}
    (hv : s.visitors[n]? = some v) (hb : v.state = .busy (.stop ⟨choice, count, .asking x⟩)) :
    ∃ t, Run (Unaided j) s t ∧ t.pool.held = false ∧ Thins s.pool t.pool ∧
      t.pool.budget = s.pool.budget := by
  induction hk : x.rest.length using Nat.strongRecOn generalizing s v x with
  | ind k ih =>
    let go := Stop.mk choice count (.asking x)
    obtain ⟨found, hstep⟩ : ∃ found, go.step (s.surroundings fun _ => false) s.pool =
        Stop.seek s.pool go x.age found x.rest := ⟨_, rfl⟩
    have hwithin : (Errand.stop go).step (s.surroundings fun _ => false) (.ok ()) s.pool =
        (Stop.seek s.pool go x.age found x.rest).within .stop
          fun q k => .done q (.stopped k) := by
      rw [← hstep]
      rfl
    obtain ⟨c, i, used, rest, hrest, -, hs⟩ | hs := Stop.seek_cases s.pool go x.age found x.rest
    · rw [hs] at hwithin
      have hrun := run_go (j := j) hv hb (Option.some_ne_none _) hwithin
      have hv' := (visitors_setVisitor hv { s.pool with held := true }
        (.busy (.stop { go with phase := .asking ⟨x.age, c, i, rest, found⟩ })) n).trans (if_pos rfl)
      obtain ⟨t, ht, hfree, hthins, hbudget⟩ := ih _ (hk ▸ hrest.length_le) hv' rfl rfl
      exact ⟨t, hrun.trans ht, hfree, (Pool.thins_held s.pool true).trans hthins, hbudget⟩
    · rw [hs] at hwithin
      refine ⟨_, run_go hv hb (Option.some_ne_none _) hwithin, ?_, ?_, ?_⟩
      · exact Pool.held_clearAll found { s.pool with held := false }
      · exact (Pool.thins_held s.pool false).trans (Pool.thins_clearAll found _)
      · exact (Pool.grows_clearAll found { s.pool with held := false }).budget

/-- Nobody holds on to the slots for ever. -/
theorem frees_of_orderly (ho : s.Orderly) (j : Nat) :
    ∃ t, Run (Unaided j) s t ∧ t.pool.held = false ∧ Thins s.pool t.pool ∧
      t.pool.budget = s.pool.budget := by
  cases hh : s.pool.held with
  | false => exact ⟨s, .refl, hh, ⟨rfl, id, id, id⟩, rfl⟩
  | true =>
    obtain ⟨n, es, hes⟩ := ho.guarded.held hh
    obtain ⟨v, hv, hasked⟩ := Option.bind_eq_some_iff.mp hes
    obtain ⟨choice, count, x, hb⟩ : ∃ choice count x,
        v.state = .busy (.stop ⟨choice, count, .asking x⟩) := by
      unfold Visitor.State.asked? Errand.asked? at hasked
      split at hasked
      · rename_i e hb
        split at hasked
        · exact ⟨_, _, _, hb⟩
        · cases hasked
      · cases hasked
    exact run_frees hv hb

theorem nears_of_free (ho : s.Orderly)
    (h : ∀ t : Depot, t.pool.held = false → t.pool.starts = s.pool.starts → t.Nears j) :
    s.Nears j := by
  obtain ⟨t, ht, hheld, hthins, hbudget⟩ := frees_of_orderly ho j
  have hj : t.pool.start? j = s.pool.start? j := by rw [Pool.start?, Pool.start?, hthins.starts]
  exact (h t hheld hthins.starts).of_run ht hj hbudget

/-- A launch that a start waits for comes to an end. -/
theorem nears_of_launching (hm : s.pool.Made) (ha : s.pool.start? j = some a) {k l : Nat}
    (hp : a.phase = .launching k l) : s.Nears j := by
  cases ho : s.pool.launchOutcome? l with
  | some o =>
    refine nears_of_step (fun _ => false) (StartJob.free_launching ha hp ?_)
    rw [ho]
    exact Option.some_ne_none o
  | none =>
    have hlt : l < s.pool.launches.length := hm.launch ha (by rw [StartJob.launch?, hp])
    obtain ⟨x, hx⟩ : ∃ x, s.pool.launches[l]? = some x := ⟨_, List.getElem?_eq_getElem hlt⟩
    have hnone : x.outcome = none := by
      rw [Pool.launchOutcome?, hx] at ho
      exact ho
    have hland : s.act (.land l .connected) =
        some { s with pool := s.pool.resolveLaunch l .connected } := by
      obtain ⟨backend, workdir, begun, outcome⟩ := x
      cases hnone
      simp only [act, hx]
    refine Nears.of_run (Run.refl.step (e := .land l .connected) trivial hland) rfl rfl ?_
    refine nears_of_step (fun _ => false) (StartJob.free_launching ha hp ?_)
    simp [Pool.launchOutcome?, Pool.resolveLaunch, hx]

/-- **Progress.** A start comes nearer to its end by what comes without any other visitor. -/
theorem nears_of_orderly (ho : s.Orderly) (hmade : s.pool.Made) (j : Nat) : s.Nears j := by
  intro a ha hw
  have hsettle : ((∃ r, a.phase = .settling r) ∨ ∃ cause, a.phase = .crashed cause) →
      s.Nears j := by
    intro hp
    refine nears_of_free ho fun t hheld hstarts => ?_
    have ht : t.pool.start? j = some a := by rwa [Pool.start?, hstarts]
    exact nears_of_step (fun _ => false) (StartJob.free_settling ht hheld hp)
  have hnear : s.Nears j → ∃ t b, Run (Unaided j) s t ∧ t.pool.start? j = some b ∧
      b.effort t.pool.budget < a.effort s.pool.budget := fun h => h a ha hw
  apply hnear
  cases hp : a.phase with
  | begin => exact nears_of_step (fun _ => false) (StartJob.free_working ha (.inl hp))
  | marking => exact nears_of_step (fun _ => false) (StartJob.free_working ha (.inr hp))
  | launching k l => exact nears_of_launching hmade ha hp
  | starting k i st =>
    obtain ⟨x, hx, -⟩ := hmade.made ha (by rw [StartJob.index?, hp])
    obtain ⟨deadline, hfree⟩ := Instance.free_start x st
    exact nears_of_deadline ⟨deadline, fun now hnow =>
      StartJob.free_starting ha hp hx (hfree now hnow)⟩
  | stopping k i st f =>
    obtain ⟨x, hx, -⟩ := hmade.made ha (by rw [StartJob.index?, hp])
    obtain ⟨deadline, hfree⟩ := Instance.free_shutdown (fun _ => false) x st
    exact nears_of_deadline ⟨deadline, fun now hnow =>
      StartJob.free_stopping ha hp hx (hfree now hnow)⟩
  | pausing k deadline =>
    exact nears_of_deadline ⟨deadline, fun now hnow => StartJob.free_pausing ha hp hnow⟩
  | settling r => exact hsettle (.inl ⟨r, hp⟩)
  | crashed cause => exact hsettle (.inr ⟨cause, hp⟩)
  | «over» r | cleared cause =>
    rw [StartJob.isUnderWay, hp] at hw
    cases hw

theorem Orderly.run (ho : s.Orderly) (h : Run P s t) : t.Orderly := by
  induction h with
  | refl => exact ho
  | step _ _ ha ih => exact ih.happens (happens_of_act ha)

theorem made_of_run (hm : s.pool.Made) (h : Run P s t) : t.pool.Made := by
  induction h with
  | refl => exact hm
  | step _ _ ha ih => exact made_of_happens ih (happens_of_act ha)

/-- **Ends.** A start can be brought to its end by what comes without any other visitor. -/
theorem ends_of_orderly (ho : s.Orderly) (hm : s.pool.Made) (ha : s.pool.start? j = some a) :
    ∃ t b, Run (Unaided j) s t ∧ t.pool.start? j = some b ∧ b.isUnderWay = false := by
  induction he : a.effort s.pool.budget using Nat.strongRecOn generalizing s a with
  | ind e ih =>
    cases hw : a.isUnderWay with
    | false => exact ⟨s, a, .refl, ha, hw⟩
    | true =>
      obtain ⟨t, b, ht, hb, hlt⟩ := nears_of_orderly ho hm j a ha hw
      obtain ⟨u, d, hu, hd, hw'⟩ := ih _ (he ▸ hlt) (ho.run ht) (made_of_run hm ht) hb rfl
      exact ⟨u, d, ht.trans hu, hd, hw'⟩

theorem ends_of_unaided (hr : Reachable P s) (ha : s.pool.start? j = some a) :
    ∃ t b, Run (Unaided j) s t ∧ t.pool.start? j = some b ∧ b.isUnderWay = false :=
  ends_of_orderly (orderly_of_reachable hr) (made_of_reachable hr) ha

/-- What comes without any other visitor holds no slot for a new start. -/
theorem marks_of_unaided {c : Command} {k : Nat} (h : Run (Unaided j) s t)
    (hm : t.pool.Marks c k) : s.pool.Marks c k := by
  induction h with
  | refl => exact hm
  | step _ he hact ih =>
    apply ih
    cases happens_of_act hact with
    | elapses | lands | rests => exact hm
    | visits | givesUp | besides => cases he
    | starts hj hg =>
      rcases hg.cases with ⟨hslots, -⟩ | hends
      · rwa [Pool.Marks, Pool.slot?, Pool.setStart, hslots] at hm
      · rename_i a' _ _
        by_cases hc : c = a'.backend.command
        · subst hc
          exact (hends.marks hm).1
        · exact (hends.slot? hc).symm.trans hm
    | goes hv hb hg =>
      have hasked := he
      rw [Unaided, askedBy?_of_busy hv hb] at hasked
      cases hg.turn with
      | spares hnone | claims hnone | takes _ hnone | holds hnone => exact absurd hnone hasked
      | asks _ _ _ hq =>
        rw [hq] at hm
        exact hm
      | lets _ _ _ hq =>
        rw [hq] at hm
        exact (Pool.marks_clearAll.mp hm).2

/-! ## Whoever is parked -/

/-- The start that a visitor is parked on, and how often it had woken those who wait. -/
def parkedOn? (s : Depot) (n : Nat) : Option (Nat × Nat) :=
  (s.visitors[n]?).bind fun v =>
    match v.state with
    | .busy (.ready ⟨_, .parked j seen⟩) => some (j, seen)
    | .busy (.work ⟨_, _, .ensuring ⟨_, .parked j seen⟩⟩) => some (j, seen)
    | _ => none

/-- Whether the next step of a visitor's errand is possible now. -/
def CanGo (s : Depot) (n : Nat) : Prop :=
  ∀ exited verdict, ∃ t, s.act (.go n exited verdict) = some t

theorem asked?_of_parkedOn {seen : Nat} (hv : s.visitors[n]? = some v)
    (hp : s.parkedOn? n = some (j, seen)) : v.state.asked? = none := by
  rw [parkedOn?, hv] at hp
  simp only [Option.bind_some] at hp
  split at hp
  case h_1 h => rw [h]; rfl
  case h_2 h => rw [h]; rfl
  case h_3 => cases hp

/-- What a parked visitor knows: the start is one of the command that is wanted, and it had woken
nobody. -/
theorem knows_of_parkedOn {seen : Nat} (ho : s.Orderly) (hp : s.parkedOn? n = some (j, seen)) :
    ∃ v c, s.visitors[n]? = some v ∧ v.wish.command? = some c ∧ seen = 0 ∧ s.pool.Knows c j := by
  obtain ⟨v, hv, hp⟩ := Option.bind_eq_some_iff.mp hp
  split at hp
  case h_1 b k m hb =>
    cases hp
    have hwish := ho.suits hv hb
    have hsound := ho.sound hv hb
    exact ⟨v, b.command, hv, by rw [← hwish]; rfl, hsound⟩
  case h_2 b restarts b' k m hb =>
    cases hp
    have hwish := ho.suits hv hb
    obtain ⟨hback, hsound⟩ := ho.sound hv hb
    obtain rfl : b' = b := hback
    exact ⟨v, b'.command, hv, by rw [← hwish]; rfl, hsound⟩
  case h_3 => cases hp

/-- Whoever was woken can go on. -/
theorem canGo_of_woken {seen : Nat} (hp : s.parkedOn? n = some (j, seen))
    (hw : ∀ a, s.pool.start? j = some a → a.notices ≠ seen) : s.CanGo n := by
  intro exited verdict
  obtain ⟨v, hv, hp⟩ := Option.bind_eq_some_iff.mp hp
  have hensure : ∀ b : Backend, ∃ q e', (Ensure.mk b (.parked j seen)).step (s.surroundings exited)
      s.pool = .next q e' := by
    intro b
    simp only [Ensure.step]
    split
    · rename_i a ha
      rw [if_neg (hw a ha)]
      exact ⟨_, _, rfl⟩
    · exact ⟨_, _, rfl⟩
  split at hp
  case h_1 b k m hb =>
    cases hp
    obtain ⟨q, e', hs⟩ := hensure b
    simp [act, hv, hb, Errand.step, hs, Step.within]
  case h_2 b restarts b' k m hb =>
    cases hp
    obtain ⟨q, e', hs⟩ := hensure b'
    simp [act, hv, hb, Errand.step, Execute.step, hs, Step.within]
  case h_3 => cases hp

/-- What comes without the other visitors leaves them where they are. -/
theorem visitor_of_unaided (h : Run (Unaided j) s t) (hv : s.visitors[n]? = some v)
    (ha : v.state.asked? = none) : t.visitors[n]? = some v := by
  induction h with
  | refl => exact hv
  | @step t u e h he hact ih =>
    cases happens_of_act hact with
    | elapses | lands | rests | starts => exact ih
    | visits | givesUp | besides => cases he
    | @goes m _ _ v' _ q state hv' hb hg =>
      rw [visitors_setVisitor hv']
      split_ifs with hm
      · subst hm
        rw [Unaided, askedBy?, ih, Option.bind_some] at he
        exact absurd ha he
      · exact ih

/-- **No lost wake-up.** Whoever is parked on a start can go on, or the start is under way; and then
it can be brought to its end by what comes without any other visitor, after which the parked visitor
can go on. -/
theorem wakes_of_parked {seen : Nat} (hr : Reachable P s) (hp : s.parkedOn? n = some (j, seen)) :
    ∃ t, Run (Unaided j) s t ∧ t.parkedOn? n = some (j, seen) ∧ t.CanGo n := by
  obtain ⟨v, c, hv, hc, rfl, a, ha, hcmd⟩ := knows_of_parkedOn (orderly_of_reachable hr) hp
  obtain ⟨t, b, ht, hb, hw⟩ := ends_of_unaided hr ha
  have hv' := visitor_of_unaided ht hv (asked?_of_parkedOn hv hp)
  have hp' : t.parkedOn? n = some (j, 0) := by
    rw [parkedOn?, hv', ← hp, parkedOn?, hv]
  have hnotices := (orderly_of_reachable (hr.runs ht)).marked.notices hb
  rw [hw] at hnotices
  refine ⟨t, ht, hp', canGo_of_woken hp' fun d hd => ?_⟩
  rw [hb] at hd
  cases hd
  rw [hnotices]
  exact Nat.one_ne_zero

end Depot

end DiagnosticBroker
