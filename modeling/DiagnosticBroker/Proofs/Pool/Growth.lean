import DiagnosticBroker.Proofs.Pool.Moves

/-!
# What no event takes back

Starts and instances stay in the tables of a pool, each for the backend that it was made for, and a
start that is over stays as it is. In particular an instance that a start has brought stays brought.

Results:
* `grows_of_happens`: every event lets the pool grow.
* `Brings.grows`: what was brought stays brought.
-/

namespace DiagnosticBroker

namespace Pool

variable {p q r : Pool} {c : Command} {i j n : Nat}

/-- The pool `q` has everything that `p` has, and nothing in `p` that is over has changed. -/
structure Grows (p q : Pool) : Prop where
  budget : q.budget = p.budget
  launches : p.launches.length ≤ q.launches.length
  start : ∀ {j a}, p.start? j = some a →
    ∃ b, q.start? j = some b ∧ b.backend = a.backend ∧ (a.isUnderWay = false → b = a)
  instance? : ∀ {i x}, p.instance? i = some x →
    ∃ y, q.instance? i = some y ∧ y.backend = x.backend

theorem Grows.of_eq (hb : q.budget = p.budget) (hl : q.launches = p.launches)
    (hs : q.starts = p.starts) (hi : q.instances = p.instances) : Grows p q where
  budget := hb
  launches := Nat.le_of_eq (by rw [hl])
  start h := ⟨_, by rwa [start?, hs], rfl, fun _ => rfl⟩
  instance? h := ⟨_, by rwa [Pool.instance?, hi], rfl⟩

theorem Grows.refl (p : Pool) : Grows p p := .of_eq rfl rfl rfl rfl

theorem Grows.trans (h : Grows p q) (h' : Grows q r) : Grows p r where
  budget := h'.budget.trans h.budget
  launches := Nat.le_trans h.launches h'.launches
  start {j a} ha := by
    obtain ⟨b, hb, hback, hover⟩ := h.start ha
    obtain ⟨d, hd, hback', hover'⟩ := h'.start hb
    refine ⟨d, hd, hback'.trans hback, fun hw => ?_⟩
    obtain rfl := hover hw
    exact hover' hw
  instance? {i x} hx := by
    obtain ⟨y, hy, hback⟩ := h.instance? hx
    obtain ⟨z, hz, hback'⟩ := h'.instance? hy
    exact ⟨z, hz, hback'.trans hback⟩

theorem grows_setInstance {x y : Instance} (hx : p.instance? i = some x)
    (hy : y.backend = x.backend) : Grows p (p.setInstance i y) where
  budget := rfl
  launches := Nat.le_refl _
  start ha := ⟨_, ha, rfl, fun _ => rfl⟩
  instance? {k z} hz := by
    rw [instance?_setInstance hx]
    split_ifs with hk
    · subst hk
      rw [hx] at hz
      cases hz
      exact ⟨y, rfl, hy⟩
    · exact ⟨z, hz, rfl⟩

theorem grows_setStart {a b : StartJob} (ha : p.start? n = some a) (hw : a.isUnderWay = true)
    (hb : b.backend = a.backend) : Grows p (p.setStart n b) where
  budget := rfl
  launches := Nat.le_refl _
  start {j d} hd := by
    rw [start?_setStart ha]
    split_ifs with hj
    · subst hj
      rw [ha] at hd
      cases hd
      exact ⟨b, rfl, hb, fun h => by rw [hw] at h; cases h⟩
    · exact ⟨d, hd, rfl, fun _ => rfl⟩
  instance? hz := ⟨_, hz, rfl⟩

theorem grows_addInstance (p : Pool) (b : Backend) : Grows p (p.addInstance b).1 where
  budget := rfl
  launches := Nat.le_refl _
  start ha := ⟨_, ha, rfl, fun _ => rfl⟩
  instance? hx :=
    ⟨_, (List.getElem?_append_left (List.getElem?_eq_some_iff.mp hx).1).trans hx, rfl⟩

theorem grows_launch (p : Pool) (now : Time) (b : Backend) (workdir : Option String) :
    Grows p (p.launch now b workdir).1 where
  budget := rfl
  launches := by simp [launch]
  start ha := ⟨_, ha, rfl, fun _ => rfl⟩
  instance? hx := ⟨_, hx, rfl⟩

theorem grows_claim (p : Pool) (b : Backend) : Grows p (p.claim b) where
  budget := rfl
  launches := Nat.le_refl _
  start ha :=
    ⟨_, (List.getElem?_append_left (List.getElem?_eq_some_iff.mp ha).1).trans ha, rfl, fun _ => rfl⟩
  instance? hx := ⟨_, hx, rfl⟩

theorem grows_resolveLaunch (p : Pool) (l : Nat) (o : LaunchOutcome) :
    Grows p (p.resolveLaunch l o) where
  budget := rfl
  launches := by simp [resolveLaunch]
  start ha := ⟨_, ha, rfl, fun _ => rfl⟩
  instance? hx := ⟨_, hx, rfl⟩

theorem grows_clearAll (found : List (Command × Nat)) (p : Pool) : Grows p (p.clearAll found) := by
  obtain ⟨slots, h⟩ := clearAll_eq found p
  rw [h]
  exact .of_eq rfl rfl rfl rfl

theorem grows_clearInstance (p : Pool) (c : Command) (i : Nat) : Grows p (p.clearInstance c i) := by
  rcases clearInstance_cases p c i with ⟨-, h⟩ | ⟨-, h⟩ <;> rw [h]
  · exact .of_eq rfl rfl rfl rfl
  · exact .refl p

/-! ## What starts bring -/

/-- A start of a command is over and has brought an instance. -/
def Brings (p : Pool) (c : Command) (i : Nat) : Prop :=
  ∃ j a, p.start? j = some a ∧ a.phase = .over (.ok i) ∧ a.backend.command = c

/-- A start of a command is known. -/
def Knows (p : Pool) (c : Command) (j : Nat) : Prop :=
  ∃ a, p.start? j = some a ∧ a.backend.command = c

theorem Brings.grows (h : p.Brings c i) (hg : Grows p q) : q.Brings c i := by
  obtain ⟨j, a, ha, hp, hc⟩ := h
  obtain ⟨b, hb, -, hover⟩ := hg.start ha
  obtain rfl := hover (by rw [StartJob.isUnderWay, hp])
  exact ⟨j, b, hb, hp, hc⟩

theorem Knows.grows (h : p.Knows c j) (hg : Grows p q) : q.Knows c j := by
  obtain ⟨a, ha, hc⟩ := h
  obtain ⟨b, hb, hback, -⟩ := hg.start ha
  exact ⟨b, hb, by rw [hback, hc]⟩

end Pool

open Pool (Grows)

variable {w : Surroundings} {p q : Pool} {n : Nat}

/-! ## Operations -/

theorem backend_afterFailure (now : Time) (j : StartJob) (k : Nat) (f : Fault) :
    (StartJob.afterFailure now j k f).backend = j.backend := by
  unfold StartJob.afterFailure
  split <;> rfl

/-- A start goes on or ends only while it is under way, and always for the same backend. -/
theorem StartJob.Goes.isUnderWay {j j' : StartJob} (h : j.Goes w p n q j') :
    j.isUnderWay = true := by
  cases h <;> rename_i hp <;> simp only [StartJob.isUnderWay, *]

theorem StartJob.Goes.backend {j j' : StartJob} (h : j.Goes w p n q j') :
    j'.backend = j.backend := by
  cases h with
  | refused hp f => exact backend_afterFailure ..
  | stopped hp hx hs => exact backend_afterFailure ..
  | _ => rfl

/-- A step of a start lets the pool grow and leaves the starts alone. -/
theorem StartJob.Goes.grows {j j' : StartJob} (h : j.Goes w p n q j') :
    Grows p q ∧ q.starts = p.starts := by
  cases h with
  | begins hp =>
    have hg : Grows p { p with unavailable := p.unavailable.filter (· ≠ j.backend.command) } :=
      .of_eq rfl rfl rfl rfl
    exact ⟨hg.trans (Pool.grows_launch ..), rfl⟩
  | connects hp => exact ⟨Pool.grows_addInstance p j.backend, rfl⟩
  | refused | crashes => exact ⟨.refl p, rfl⟩
  | starts hp hx hs => exact ⟨Pool.grows_setInstance hx ((Instance.backend_start ..).becomes hs), rfl⟩
  | succeeds hp hx hs =>
    exact ⟨Pool.grows_setInstance hx ((Instance.backend_start ..).becomes hs), rfl⟩
  | fails hp hx hs => exact ⟨Pool.grows_setInstance hx ((Instance.backend_start ..).becomes hs), rfl⟩
  | stops hp hx hs =>
    exact ⟨Pool.grows_setInstance hx ((Instance.endures_shutdown ..).becomes hs).backend, rfl⟩
  | stopped hp hx hs =>
    exact ⟨Pool.grows_setInstance hx ((Instance.endures_shutdown ..).becomes hs).backend, rfl⟩
  | resumes hp => exact ⟨Pool.grows_launch .., rfl⟩
  | marks hp => exact ⟨.of_eq rfl rfl rfl rfl, rfl⟩
  | @settles r hp hh =>
    cases r with
    | ok i => exact ⟨.of_eq rfl rfl rfl rfl, rfl⟩
    | error f => exact ⟨.of_eq rfl rfl rfl rfl, rfl⟩
  | clears hp hh =>
    unfold StartJob.clear
    simp only
    split_ifs
    · exact ⟨.of_eq rfl rfl rfl rfl, rfl⟩
    · exact ⟨.refl p, rfl⟩

theorem grows_start {j j' : StartJob} (hj : p.start? n = some j) (h : j.Goes w p n q j') :
    Grows p (q.setStart n j') := by
  obtain ⟨hg, hs⟩ := h.grows
  have hj' : q.start? n = some j := by rwa [Pool.start?, hs]
  exact hg.trans (Pool.grows_setStart hj' h.isUnderWay h.backend)

theorem Retire.Goes.grows {c : Command} {i : Nat} {r : Retire} {t : Task Retire Unit}
    (h : r.Goes w p c i q t) : Grows p q := by
  cases h with
  | removes hh => exact Pool.grows_clearInstance p c i
  | stops hx hs | stopped hx hs =>
    exact Pool.grows_setInstance hx ((Instance.endures_shutdown ..).becomes hs).backend

theorem Ensure.Goes.grows {e : Ensure} {t : Task Ensure StartResult} (h : e.Goes w p q t) :
    Grows p q := by
  cases h with
  | touches hp => exact .of_eq rfl rfl rfl rfl
  | retires hp hr | retired hp hr => exact hr.grows
  | claims hp hh hs => exact Pool.grows_claim p e.backend
  | _ => exact .refl p

theorem Execute.Goes.grows {x : Execute Nat} {t : Task (Execute Nat) (Except Fault Nat)}
    (h : x.Goes w p q t) : Grows p q := by
  cases h with
  | ensures hp he | begins hp he | fails hp he => exact he.grows
  | retires hp hr | retired hp hr deadline => exact hr.grows
  | _ => exact .refl p

theorem StopAll.Goes.grows {s : StopAll} {t : Task StopAll Unit} (h : s.Goes w p q t) :
    Grows p q := by
  cases h with
  | stops hx hs | stopped hx hs =>
    exact Pool.grows_setInstance hx ((Instance.endures_shutdown ..).becomes hs).backend
  | ends => exact .refl p

theorem Stop.Goes.grows {s : Stop} {t : Task Stop Nat} (h : s.Goes w p q t) : Grows p q := by
  cases h with
  | takes | takesAll | holds | asks => exact .of_eq rfl rfl rfl rfl
  | takesNone => exact .refl p
  | @takesFound _ found =>
    have hg : Grows p { p with held := false } := .of_eq rfl rfl rfl rfl
    exact hg.trans (Pool.grows_clearAll found _)
  | stops hp hr | ends hp hr => exact hr.grows

theorem Errand.Goes.grows {e : Errand} {state : Visitor.State} (h : e.Goes w p q state) :
    Grows p q := by
  cases h with
  | ready h | readied h | work h | worked h | stop h | stopped h => exact h.grows

/-! ## Events -/

namespace Depot

theorem grows_letGo (p : Pool) (e : Errand) : Grows p (letGo p e) := by
  unfold letGo
  split
  · exact .of_eq rfl rfl rfl rfl
  · exact .refl p

/-- **Growth.** Every event lets the pool grow. -/
theorem grows_of_happens {s s' : Depot} {e : Event} (h : s.Happens e s') :
    Grows s.pool s'.pool := by
  cases h with
  | elapses d n => exact .of_eq rfl rfl rfl rfl
  | lands o hl => exact Pool.grows_resolveLaunch ..
  | rests | visits => exact .refl _
  | starts hj hg => exact grows_start hj hg
  | goes hv hb hg => exact hg.grows
  | givesUp hv hb => exact grows_letGo ..
  | besides hx hy => exact Pool.grows_setInstance hx hy.backend

theorem grows_of_run {P : Depot → Event → Prop} {s t : Depot} (h : Run P s t) :
    Grows s.pool t.pool := by
  induction h with
  | refl => exact .refl _
  | step _ _ ha ih => exact ih.trans (grows_of_happens (happens_of_act ha))

end Depot

end DiagnosticBroker
