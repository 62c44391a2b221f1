import DiagnosticBroker.Proofs.Pool.Progress

/-!
# Callers share one start

While nobody shuts backends down, a command has at most one start under way, and its slot is held
for that start. Whoever comes to hold an instance, does so while it is in the slot, so that everybody
who comes to hold one between a start and the next time that the slot is emptied has the same. And
whoever is parked is woken.

Whoever holds an instance keeps it, though: a caller who took an instance out of the slot returns with
it even if another one is in the slot by then.

Results:
* `taken_of_happens`: an instance comes from the slot.
* `one_start_in_flight`: starts are shared.
* `late_return`: callers who return at the same time may have different instances.
-/

namespace DiagnosticBroker

open Pool (Grows Owned)

variable {w : Surroundings} {p q : Pool} {c : Command} {i k n : Nat}

/-! ## Holding an instance -/

/-- The instance that a caller has found in the slot, or is given by the start that fills it. -/
def Ensure.taken? (p : Pool) (e : Ensure) : Option Nat :=
  match e.phase with
  | .probe i => some i
  | .touch i => some i
  | .joining j => ((p.start? j).bind (·.result?)).bind (·.toOption)
  | _ => none

/-- The instance that a visitor holds who is on the way. -/
def Errand.taken? (p : Pool) : Errand → Option Nat
  | .ready e => e.taken? p
  | .work ⟨_, _, .ensuring e⟩ => e.taken? p
  | .work ⟨_, _, .running i _⟩ => some i
  | _ => none

/-- The instance that a visitor holds or has returned with. -/
def Visitor.State.taken? (p : Pool) : Visitor.State → Option Nat
  | .busy e => e.taken? p
  | .done (.served r) => r.toOption
  | _ => none

theorem eq_of_toOption {r : StartResult} (h : r.toOption = some k) : r = .ok k := by
  cases r with
  | ok i => cases h; rfl
  | error f => cases h

theorem result_of_taken {j : Nat}
    (h : ((p.start? j).bind (·.result?)).bind (·.toOption) = some k) :
    ∃ a, p.start? j = some a ∧ a.result? = some (.ok k) := by
  obtain ⟨r, hr, hk⟩ := Option.bind_eq_some_iff.mp h
  obtain ⟨a, ha, hr⟩ := Option.bind_eq_some_iff.mp hr
  rw [eq_of_toOption hk] at hr
  exact ⟨a, ha, hr⟩

theorem taken_of_result {j : Nat} {a : StartJob} {r : StartResult} (ha : p.start? j = some a)
    (hr : a.result? = some r) :
    ((p.start? j).bind (·.result?)).bind (·.toOption) = r.toOption := by
  rw [ha, Option.bind_some, hr, Option.bind_some]

/-! ## Where instances come from -/

/-- A caller's step takes an instance out of the slot, if it takes one. -/
theorem Ensure.Goes.taken {e e' : Ensure} (h : e.Goes w p q (.running e'))
    (hk : e'.taken? q = some k) : e.taken? p = some k ∨ q.Holds e.backend.command k := by
  cases h with
  | finds hp hs =>
    cases hk
    exact .inr hs
  | passes hp =>
    cases hk
    exact .inl (by rw [taken?, hp])
  | claims hp hh hs =>
    obtain ⟨a, ha, hr⟩ := result_of_taken hk
    rcases (Pool.start?_claim p e.backend).mp ha with ha | ⟨-, rfl⟩
    · have hlt := (List.getElem?_eq_some_iff.mp ha).1
      exact absurd hlt (Nat.lt_irrefl _)
    · cases hr
  | rejects | retires | retired | enlists | parks | returns | misses => cases hk

/-- A caller returns with the instance that it holds. -/
theorem Ensure.Goes.taken_of_ended {e : Ensure} {r : StartResult} (h : e.Goes w p q (.ended r))
    (hk : r.toOption = some k) : e.taken? p = some k := by
  cases h with
  | touches hp =>
    cases hk
    rw [taken?, hp]
  | joins hp ha hr =>
    rw [taken?, hp]
    exact (taken_of_result ha hr).trans hk

/-- A visitor's step takes an instance out of the slot, if it takes one. -/
theorem Errand.Goes.taken {e : Errand} {state : Visitor.State} (h : e.Goes w p q state)
    (hs : e.Sound p) (hk : state.taken? q = some k) :
    e.taken? p = some k ∨ ∃ c, e.wish.command? = some c ∧ q.Holds c k := by
  cases h with
  | ready h => exact (h.taken hk).imp_right fun hk => ⟨_, rfl, hk⟩
  | readied h => exact .inl (h.taken_of_ended hk)
  | stop | stopped => cases hk
  | @worked x r h =>
    obtain ⟨b, restarts, phase⟩ := x
    cases h with
    | fails hp h => cases hk
    | gives => cases hk
    | succeeds hp =>
      cases hp
      obtain ⟨rfl, -⟩ := hs
      exact .inl hk
  | @work x x' h =>
    obtain ⟨b, restarts, phase⟩ := x
    cases h with
    | @ensures _ e e' hp h =>
      cases hp
      obtain ⟨hback, -⟩ := hs
      obtain rfl : e.backend = b := hback
      exact (h.taken hk).imp_right fun hk => ⟨_, rfl, hk⟩
    | begins hp h =>
      cases hp
      exact .inl (h.taken_of_ended hk)
    | rejects | retires | retired | restarts => cases hk

/-- Whoever waits for a start is given an instance only when the start has put it into the slot. -/
def Pool.Settles (p q : Pool) (k : Nat) : Prop :=
  ∀ {j a b}, p.start? j = some a → q.start? j = some b → b.result? = some (.ok k) →
    a.result? = some (.ok k) ∨ q.Holds a.backend.command k

theorem Pool.settles_of_eq (hs : q.starts = p.starts) : p.Settles q k := by
  intro j a b ha hb hr
  rw [start?, hs] at hb
  rw [start?, hb] at ha
  cases ha
  exact .inl hr

theorem Pool.settles_claim (p : Pool) (b : Backend) : p.Settles (p.claim b) k := by
  intro j a b' ha hb hr
  rcases (start?_claim p b).mp hb with hb | ⟨rfl, rfl⟩
  · rw [ha] at hb
    cases hb
    exact .inl hr
  · cases hr

theorem StartJob.Goes.settles_setStart {j j' : StartJob} (h : j.Goes w p n q j')
    (hj : p.start? n = some j) : p.Settles (q.setStart n j') k := by
  intro m a b ha hb hr
  rw [h.start?_setStart hj] at hb
  split_ifs at hb with hm
  · subst hm
    rw [hj] at ha
    cases ha
    cases hb
    have hover := phase_of_result hr
    rcases h.cases with ⟨-, -, hw, -⟩ | he
    · rw [StartJob.isUnderWay, hover] at hw
      cases hw
    · exact .inr (he.brings hover)
  · rw [ha] at hb
    cases hb
    exact .inl hr

theorem Ensure.taken_of_settles {e : Ensure} (he : e.Sound p) (hs : p.Settles q k)
    (hk : e.taken? q = some k) : e.taken? p = some k ∨ q.Holds e.backend.command k := by
  obtain ⟨b, phase⟩ := e
  cases phase with
  | joining j =>
    obtain ⟨d, hd, hr⟩ := result_of_taken hk
    obtain ⟨a, ha, hc⟩ := he
    rcases hs ha hd hr with hr | hholds
    · exact .inl ((taken_of_result ha hr).trans rfl)
    · exact .inr (hc ▸ hholds)
  | probe i | touch i =>
    cases hk
    exact .inl rfl
  | look | retire | enlist | parked | claim => cases hk

/-- A visitor at rest comes to hold an instance only by a start that puts it into the slot. -/
theorem Errand.taken_of_settles {e : Errand} (he : e.Sound p) (hs : p.Settles q k)
    (hk : e.taken? q = some k) :
    e.taken? p = some k ∨ ∃ c, e.wish.command? = some c ∧ q.Holds c k := by
  cases e with
  | ready e => exact (Ensure.taken_of_settles he hs hk).imp_right fun hk => ⟨_, rfl, hk⟩
  | stop s => cases hk
  | work x =>
    obtain ⟨b, restarts, phase⟩ := x
    cases phase with
    | ensuring e =>
      obtain ⟨hback, hsound⟩ := he
      obtain rfl : e.backend = b := hback
      exact (Ensure.taken_of_settles hsound hs hk).imp_right fun hk => ⟨_, rfl, hk⟩
    | running i r =>
      cases hk
      exact .inl rfl
    | retiring | pausing => cases hk

namespace Depot

variable {P : Depot → Event → Prop} {s s' t : Depot} {e : Event}

/-- The instance that a visitor holds or has returned with. -/
def taken? (s : Depot) (n : Nat) : Option Nat :=
  (s.visitors[n]?).bind fun v => v.state.taken? s.pool

/-- A visitor wants a ready instance for a command. -/
def Wants (s : Depot) (n : Nat) (c : Command) : Prop :=
  ∃ v, s.visitors[n]? = some v ∧ v.wish.command? = some c

theorem settles_of_happens (h : s.Happens e s') : s.pool.Settles s'.pool k := by
  cases h with
  | elapses | lands | rests | visits | besides => exact Pool.settles_of_eq rfl
  | starts hj hg => exact hg.settles_setStart hj
  | goes hv hb hg =>
    rcases hg.turn.starts with hs | ⟨b, rfl⟩
    · exact Pool.settles_of_eq hs
    · exact Pool.settles_claim s.pool b
  | givesUp hv hb => exact Pool.settles_of_eq (starts_letGo ..)

/-- A visitor who is at rest comes to hold an instance only by a start that puts it into the slot. -/
theorem taken_of_settles (ho : s.Orderly) (hs : s.pool.Settles q k) {v : Visitor}
    (hv : s.visitors[n]? = some v) (hk : v.state.taken? q = some k) :
    s.taken? n = some k ∨ ∃ c, s.Wants n c ∧ q.Holds c k := by
  rw [taken?, hv, Option.bind_some]
  cases hb : v.state with
  | busy d =>
    rw [hb] at hk
    refine (Errand.taken_of_settles (ho.sound hv hb) hs hk).imp_right ?_
    rintro ⟨c, hc, hholds⟩
    exact ⟨c, ⟨v, hv, by rw [← ho.suits hv hb, hc]⟩, hholds⟩
  | done r =>
    rw [hb] at hk
    cases r <;> exact .inl hk
  | gone d =>
    rw [hb] at hk
    cases hk

/-- **Instances come from slots.** Whoever comes to hold an instance does so while it is in the slot
of the command that is wanted. -/
theorem taken_of_happens (ho : s.Orderly) (h : s.Happens e s') (hk : s'.taken? n = some k) :
    s.taken? n = some k ∨ ∃ c, s.Wants n c ∧ s'.pool.Holds c k := by
  obtain ⟨v', hv', hk⟩ := Option.bind_eq_some_iff.mp hk
  cases fares_of_happens h hv' with
  | stays hv => exact taken_of_settles ho (settles_of_happens h) hv hk
  | @comes wish he hn heq =>
    subst heq
    cases wish <;> cases hk
  | goes hu hb hg heq =>
    subst heq
    rw [taken?, hu, Option.bind_some, hb]
    refine (hg.taken (ho.sound hu hb) hk).imp_right ?_
    rintro ⟨c, hc, hholds⟩
    exact ⟨c, ⟨_, hu, by rw [← ho.suits hu hb, hc]⟩, hholds⟩
  | leaves hu hb heq =>
    subst heq
    cases hk

/-! ## Slots that stay filled -/

theorem holds_or_empty_of_thins (h : Pool.Thins p q) (hi : p.Holds c i) :
    q.Holds c i ∨ q.slot? c = none := by
  cases hs : q.slot? c with
  | none => exact .inr rfl
  | some slot =>
    cases slot with
    | initializing j => exact absurd hi (Pool.Marks.not_holds (h.marks hs))
    | ready k used =>
      obtain rfl : k = i := (h.holds ⟨used, hs⟩).eq hi
      exact .inl ⟨used, hs⟩

/-- An instance leaves its slot only for the slot to be empty. -/
theorem holds_or_empty_of_happens (ho : s.pool.Owned) (h : s.Happens e s')
    (hi : s.pool.Holds c i) : s'.pool.Holds c i ∨ s'.pool.slot? c = none := by
  cases h with
  | elapses | lands | rests | visits | besides => exact .inl hi
  | givesUp hv hb => exact holds_or_empty_of_thins (thins_letGo ..) hi
  | @starts m exited j j' q hj hg =>
    obtain ⟨used, hi'⟩ := hi
    rcases hg.cases with ⟨hslots, -⟩ | he
    · exact .inl ⟨used, by rwa [Pool.slot?, Pool.setStart, hslots]⟩
    · have hne : c ≠ j.backend.command := by
        rintro rfl
        exact (ho _ _ ⟨j, hj, hg.isUnderWay, rfl⟩).not_holds ⟨used, hi'⟩
      exact .inl ⟨used, (he.slot? hne).trans hi'⟩
  | goes hv hb hg =>
    rcases hg.turn.thins_or_claims with hthins | ⟨b, hempty, rfl⟩
    · exact holds_or_empty_of_thins hthins hi
    · exact .inl (hi.claim hempty)

/-- Whoever holds an instance after an event held it before, unless it is the one in the slot. -/
theorem taken_or_held (ho : s.Orderly) (h : s.Happens e s') (hi : s'.pool.Holds c i)
    (hw : s'.Wants n c) (hk : s'.taken? n = some k) :
    k = i ∨ s.Wants n c ∧ s.taken? n = some k := by
  obtain ⟨v', hv', hc⟩ := hw
  have hsame : ∀ {v : Visitor}, s.visitors[n]? = some v → v.wish.command? = some c := by
    intro v hv
    obtain ⟨x, hx, hwish⟩ := visitor_of_happens h hv
    rw [hv'] at hx
    cases hx
    rw [← hwish, hc]
  rcases taken_of_happens ho h hk with hk | ⟨d, ⟨v, hv, hd⟩, hholds⟩
  · obtain ⟨v, hv, -⟩ := Option.bind_eq_some_iff.mp hk
    exact .inr ⟨⟨v, hv, hsame hv⟩, hk⟩
  · rw [hsame hv] at hd
    cases hd
    exact .inl (hholds.eq hi)

/-- From the event on that leaves an instance in a slot and until the slot is emptied, the slot has
that instance, and everybody who comes to hold one has that one. -/
theorem shared_of_run {u : Depot} (hr : Reachable (fun _ e => e.isShutdown = false) s)
    (he : e.isShutdown = false) (ha : s.act e = some u) (hi : u.pool.Holds c i)
    (hrun : Run (fun u e => e.isShutdown = false ∧ u.pool.slot? c ≠ none) u t)
    (ht : t.pool.slot? c ≠ none) :
    t.pool.Holds c i ∧
      ∀ n k, t.Wants n c → t.taken? n = some k → k = i ∨ s.taken? n = some k := by
  induction hrun with
  | refl =>
    refine ⟨hi, fun n k hw hk => ?_⟩
    exact (taken_or_held (orderly_of_reachable hr) (happens_of_act ha) hi hw hk).imp_right (·.2)
  | @step v x e' hrun he' ha' ih =>
    obtain ⟨hv, hall⟩ := ih he'.2
    have hru : Reachable (fun _ e => e.isShutdown = false) u := hr.run (Run.refl.step he ha)
    have hrv := hru.run (hrun.mono fun _ _ h => h.1)
    have hhappens := happens_of_act ha'
    have howned := owned_of_reachable (undisturbed_of_reachable hrv).reachable
    have hx : x.pool.Holds c i :=
      (holds_or_empty_of_happens howned hhappens hv).resolve_right ht
    refine ⟨hx, fun n k hw hk => ?_⟩
    rcases taken_or_held (orderly_of_reachable hrv) hhappens hx hw hk with rfl | ⟨hw, hk⟩
    · exact .inl rfl
    · exact hall n k hw hk

/-- **One start in flight.** While nobody comes to shut backends down, whatever callers, cleaners and
launches do and whoever gives up: a command has at most one start under way, and its slot is held for
a start if and only if that start is under way. From the event on that leaves an instance in a slot
and until the slot is emptied, everybody who comes to hold an instance has that one. Whoever is parked
on a start can go on, or the start is under way; without any other visitor it can be brought to its
end, after which the parked visitor can go on and the slot is no longer held for it. -/
theorem one_start_in_flight (h : Reachable (fun _ e => e.isShutdown = false) s) :
    (∀ c j k, s.pool.IsStarting c j → s.pool.IsStarting c k → j = k) ∧
    (∀ c j, s.pool.IsStarting c j ↔ s.pool.Marks c j) ∧
    (∀ c i e u t, e.isShutdown = false → s.act e = some u → u.pool.Holds c i →
      Run (fun u e => e.isShutdown = false ∧ u.pool.slot? c ≠ none) u t → t.pool.slot? c ≠ none →
        t.pool.Holds c i ∧
          ∀ n k, t.Wants n c → t.taken? n = some k → k = i ∨ s.taken? n = some k) ∧
    (∀ n j seen, s.parkedOn? n = some (j, seen) →
      (s.CanGo n ∨ ∃ c, s.Wants n c ∧ s.pool.IsStarting c j) ∧
        ∃ t, Run (Unaided j) s t ∧ t.parkedOn? n = some (j, seen) ∧ t.CanGo n) ∧
    (∀ c j, s.pool.Marks c j → ∃ t, Run (Unaided j) s t ∧ ¬ t.pool.Marks c j) := by
  have ho := orderly_of_reachable h
  have howned := owned_of_reachable (undisturbed_of_reachable h).reachable
  refine ⟨fun c j k hj hk => (howned c j hj).eq (howned c k hk),
    fun c j => ⟨howned c j, ho.marked.marks⟩,
    fun c i e u t he ha hi hrun ht => shared_of_run h he ha hi hrun ht,
    fun n j seen hp => ⟨?_, wakes_of_parked h hp⟩, fun c j hm => ?_⟩
  · obtain ⟨v, c, hv, hc, rfl, a, ha, hcmd⟩ := knows_of_parkedOn ho hp
    cases hw : a.isUnderWay with
    | true => exact .inr ⟨c, ⟨v, hv, hc⟩, a, ha, hw, hcmd⟩
    | false =>
      have hnotices := ho.marked.notices ha
      rw [hw] at hnotices
      refine .inl (canGo_of_woken hp fun b hb => ?_)
      rw [ha] at hb
      cases hb
      rw [hnotices]
      exact Nat.one_ne_zero
  · obtain ⟨a, ha, -⟩ := ho.marked.marks hm
    obtain ⟨t, b, hrun, hb, hw⟩ := ends_of_unaided h ha
    have ht := h.runs hrun
    refine ⟨t, hrun, fun hm => ?_⟩
    obtain ⟨d, hd, hway, -⟩ := (orderly_of_reachable ht).marked.marks hm
    rw [hb] at hd
    cases hd
    rw [hw] at hway
    cases hway

/-! ## Whoever returns late -/

/-- Visitor 0 works with the first instance, and visitor 1 has found it in the slot. A cleaner empties
the slot, visitor 3 begins the second start, and visitor 4 is parked on it. -/
def replacing : List Event :=
  [.visit (.work python), go 0, go 0] ++ bringing 0 ++ [go 0] ++
    [.visit (.ready python), go 1, go 1] ++
    [.elapse 0 1, .visit (.stop (.idle .zero)), go 2, go 2, go 2] ++
    [.visit (.ready python), go 3, go 3] ++ [.visit (.ready python), go 4, go 4] ++ preparing 1

/-- The second instance is about to be put into the slot. -/
def almostReplaced : Depot := (sample.follow replacing).getD sample

def replaced : Depot := (almostReplaced.act (advance 1)).getD sample

/-- Visitor 0 is done with the work, and visitors 1 and 3 return as well. -/
def returnedOne : Depot := (replaced.act (go 0)).getD sample

def returnedTwo : Depot := (returnedOne.act (go 1)).getD sample

def returned : Depot := (returnedTwo.act (go 3)).getD sample

theorem act_almostReplaced : almostReplaced.act (advance 1) = some replaced := by rfl

theorem holds_replaced : replaced.pool.Holds python.command 1 := ⟨1, by rfl⟩

theorem reachable_almostReplaced :
    Reachable (fun _ e => e.isShutdown = false) almostReplaced := by
  have hfollow : sample.follow replacing = some almostReplaced := by rfl
  refine ⟨_, _, _, _, _, Run.of_follow (fun _ => ?_) hfollow⟩
  decide

/-- The second instance stays in the slot while all of them return. -/
theorem run_returned :
    Run (fun u e => e.isShutdown = false ∧ u.pool.slot? python.command ≠ none) replaced returned ∧
      returned.pool.slot? python.command ≠ none := by
  have hfilled : ∀ {u : Depot}, u.pool.slot? python.command = some (.ready 1 1) →
      u.pool.slot? python.command ≠ none := by
    intro u hu
    rw [hu]
    exact Option.some_ne_none _
  have hone : replaced.act (go 0) = some returnedOne := by rfl
  have htwo : returnedOne.act (go 1) = some returnedTwo := by rfl
  have hthree : returnedTwo.act (go 3) = some returned := by rfl
  have hrun := (Run.refl (P := fun u e => e.isShutdown = false ∧
    u.pool.slot? python.command ≠ none)).step ⟨rfl, hfilled (by rfl)⟩ hone
  exact ⟨(hrun.step ⟨rfl, hfilled (by rfl)⟩ htwo).step ⟨rfl, hfilled (by rfl)⟩ hthree,
    hfilled (by rfl)⟩

/-- Visitor 4 will be woken, and the second instance is the one in the slot and in the hands of
visitor 3. -/
theorem one_start_in_flight_replaced :
    (∃ t, Run (Unaided 1) almostReplaced t ∧ t.parkedOn? 4 = some (1, 0) ∧ t.CanGo 4) ∧
      returned.pool.Holds python.command 1 ∧ returned.taken? 3 = some 1 := by
  obtain ⟨-, -, hshared, hwakes, -⟩ := one_start_in_flight reachable_almostReplaced
  obtain ⟨hrun, hslot⟩ := run_returned
  have hsame := hshared python.command 1 (advance 1) replaced returned rfl act_almostReplaced
    holds_replaced hrun hslot
  exact ⟨(hwakes 4 1 0 (by rfl)).2, hsame.1, by rfl⟩

/-- Callers who return after the second start has ended, and before its slot is emptied, do not all
have the second instance. -/
theorem late_return :
    ¬ ∀ (s u t : Depot) (e : Event) (c : Command) (i k n : Nat) (v v' : Visitor),
      Reachable (fun _ e => e.isShutdown = false) s → e.isShutdown = false → s.act e = some u →
      u.pool.Holds c i →
      Run (fun u e => e.isShutdown = false ∧ u.pool.slot? c ≠ none) u t → t.pool.slot? c ≠ none →
      u.visitors[n]? = some v → v.wish.command? = some c → (∃ errand, v.state = .busy errand) →
      t.visitors[n]? = some v' → v'.state = .done (.served (.ok k)) → k = i := by
  intro h
  obtain ⟨hrun, hslot⟩ := run_returned
  have hbusy : replaced.visitors[1]? = some ⟨.ready python, .busy (.ready ⟨python, .touch 0⟩)⟩ := by
    rfl
  have hdone : returned.visitors[1]? = some ⟨.ready python, .done (.served (.ok 0))⟩ := by rfl
  have heq : 0 = 1 := h _ _ _ _ _ _ _ _ _ _ reachable_almostReplaced rfl act_almostReplaced
    holds_replaced hrun hslot hbusy rfl ⟨_, rfl⟩ hdone rfl
  cases heq

end Depot

end DiagnosticBroker
