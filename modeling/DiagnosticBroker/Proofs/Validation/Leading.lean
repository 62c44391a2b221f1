import DiagnosticBroker.Proofs.Pool.Readiness
import DiagnosticBroker.Proofs.Validation.Standing

/-!
# What a check can come to by itself

Whatever a check waits for comes without the help of any other caller: time passes, starts end, and
whoever holds on to the slots lets them go. That one state *leads to* another means that the other
can be reached in this way: no other caller has to come, and none of those who are there has to go
on.

Results:
* `Round.effort_of_goes`: every step leaves less to do.
* `leads_of_measure`: what comes nearer with every step comes about.
* `run_of_alone`, `leads_of_free`: what the check can come to alone, and what is possible from some
  time on, comes about.
-/

namespace DiagnosticBroker

/-! ## Waits and rounds -/

namespace Wait

variable {now : Time} {c c' : Collector} {v v' : Wait}

/-- How many steps a wait may still take as long as its channel stays as it is. -/
def effort (c : Collector) (v : Wait) : Nat :=
  match v.phase with
  | .begin => 4
  | .snapshot _ => 2
  | .quiet _ _ seen => if (c.channelOf v.waiter).revision = seen then 1 else 3

theorem effort_of_next (h : v.step now c = .next c' v') : v'.effort c < v.effort c := by
  have hs := steps now c v
  rw [h] at hs
  cases hs with
  | begins hp => simp [effort, hp]
  | seen hp => simp [effort, hp]
  | replaced hp hr => simp [effort, hp, hr]

/-- A wait waits no longer than to its deadline. -/
theorem free_wait (c : Collector) (v : Wait) :
    ∃ deadline, ∀ now, deadline ≤ now → (v.step now c).isBlocked = false := by
  cases hp : v.phase with
  | begin => exact ⟨0, fun now _ => by simp only [step, hp]; rfl⟩
  | snapshot deadline =>
    refine ⟨deadline, fun now hnow => ?_⟩
    simp only [step, hp]
    split_ifs <;> rfl
  | quiet deadline quietUntil seen =>
    refine ⟨quietUntil, fun now hnow => ?_⟩
    simp only [step, hp]
    split_ifs <;> rfl

end Wait

namespace Round

variable {files : FileTree} {now : Time} {p q : Pool} {r r' : Round} {notes : List Note}

/-- How many steps a round may still take as long as nobody does anything to its instance. -/
def effort (p : Pool) : Round → Nat
  | .opening o => if o.text = none then 7 else 6
  | .waiting s v => 1 + ((p.instance? s.index).map fun x => v.effort x.collector).getD 0
  | .closing _ _ => 0

theorem effort_of_goes (h : r.Goes files now p q (.running r') notes) :
    r'.effort q < r.effort p := by
  cases h with
  | reads ht => simp [effort, ht]
  | @opens o text x y version waiter ht hx ho =>
    have hy : (p.setInstance o.index y).instance? o.index = some y := by
      rw [Pool.instance?_setInstance hx, if_pos rfl]
    simp [effort, ht, hy, Wait.effort]
  | waits hx hv =>
    have hlt := Wait.effort_of_next hv
    simpa [effort, hx] using hlt
  | hears hx => exact Nat.add_pos_left Nat.one_pos _

/-- A round waits no longer than to the deadline of its wait. -/
theorem free_round (files : FileTree) (hx : ∃ x, p.instance? r.index = some x) :
    ∃ deadline, ∀ now, deadline ≤ now → (r.step files now p).isBlocked = false := by
  obtain ⟨x, hx⟩ := hx
  cases r with
  | opening o =>
    have hx : p.instance? o.index = some x := hx
    refine ⟨0, fun now _ => Instance.isBlocked_within ?_ fun q s => by cases s <;> rfl⟩
    unfold Session.Opening.step
    cases o.text with
    | none =>
      simp only
      split <;> rfl
    | some text => simp only [hx, Step.isBlocked]
  | waiting s v =>
    obtain ⟨deadline, hfree⟩ := Wait.free_wait x.collector v
    refine ⟨deadline, fun now hnow => Instance.isBlocked_within ?_ fun q o => rfl⟩
    refine StartJob.isBlocked_onInstance hx ?_
    have hv := hfree now hnow
    generalize v.step now x.collector = st at hv
    cases st with
    | blocked u => cases hv
    | next | later | done => rfl
  | closing s o => exact ⟨0, fun now _ => rfl⟩

end Round

namespace Inspection

/-! ## Leading to something -/

/-- What comes without any other caller: the steps of the check, and what a start waits for. -/
def Unaided (s : Inspection) : Event → Prop
  | .step _ => True
  | .other e => ∃ j, Depot.Unaided j s.depot e
  | .edit _ => False

/-- Something can come about without any other caller. -/
def Leads (s : Inspection) (G : Inspection → Prop) : Prop := ∃ t, Run Unaided s t ∧ G t

variable {rules : Rules} {file path languageId : String} {s t : Inspection}
  {G H : Inspection → Prop}

theorem Leads.here (h : G s) : s.Leads G := ⟨s, .refl, h⟩

theorem Leads.trans (h : s.Leads G) (hG : ∀ t, Run Unaided s t → G t → t.Leads H) : s.Leads H := by
  obtain ⟨t, ht, hg⟩ := h
  obtain ⟨u, hu, hH⟩ := hG t ht hg
  exact ⟨u, ht.trans hu, hH⟩

/-- What comes nearer with every step comes about. -/
theorem leads_of_measure {I : Nat → Inspection → Prop}
    (hstep : ∀ n s, Reachable rules file s → I n s →
      s.Leads fun t => G t ∨ ∃ m, m < n ∧ I m t)
    (n : Nat) (hr : Reachable rules file s) (hs : I n s) : s.Leads G := by
  induction n using Nat.strongRecOn generalizing s with
  | ind n ih =>
    refine (hstep n s hr hs).trans fun t ht h => ?_
    rcases h with hG | ⟨m, hlt, hI⟩
    · exact .here hG
    · exact ih m hlt (hr.run ht) hI

/-- The check is done, and there is a report. -/
def IsOver (s : Inspection) : Prop := ∃ r, s.check = .ended r

/-- The check works on a document with a backend, and is so far with it. -/
def Works (s : Inspection) (file path languageId : String) (x : Execute Round) : Prop :=
  s.check = .running ⟨file, .working path languageId x⟩

/-- One step of the work of a check. -/
def workStep (s : Inspection) (path languageId : String) (now : Time) (x : Execute Round) :
    Step Pool (Execute Round) Wait.Outcome :=
  x.step (Round.work s.files path languageId s.depot.pool.budget.maxFileSizeBytes)
    ⟨now, fun _ => false, s.depot.isProcess, s.depot.clientProcess⟩ s.depot.pool

variable {x : Execute Round} {q : Pool}

theorem act_of_reportStep {exited : Nat → Bool} {v : Validation} {u : Task Validation Report}
    (hv : s.check = .running v)
    (hu : (v.reportStep s.rules s.files (s.depot.surroundings exited) s.depot.pool).Becomes q u) :
    s.act (.step exited) = some { s with
      depot := { s.depot with pool := q }
      check := u
      journal := s.journal ++ s.check.notes s.depot.pool u } := by
  simp only [act, stepCheck]
  rw [hv, Task.advance_of_becomes hu]
  rfl

/-- A file that is refused is reported at once, and nothing else happens. -/
theorem act_of_rejects {f : BrokerFault} (exited : Nat → Bool)
    (hcheck : s.check = .running { file := file })
    (hs : Validation.select s.rules s.files s.depot.pool.directory file = .error f) :
    s.act (.step exited) = some { s with check := .ended (.failure file f.message) } := by
  have hstep : Validation.reportStep s.rules s.files (s.depot.surroundings exited) s.depot.pool
      { file := file } = .done s.depot.pool (.failure file f.message) := by
    simp only [Validation.reportStep, Validation.step, hs]
    rfl
  rw [act_of_reportStep hcheck (.of_done hstep), hcheck]
  simp only [Task.notes, Task.round?, Validation.round?, List.append_nil]

/-- A file that may be checked is checked by its backend. -/
theorem act_of_selects {b : Backend} (exited : Nat → Bool)
    (hcheck : s.check = .running { file := file })
    (hs : Validation.select s.rules s.files s.depot.pool.directory file = .ok (path, b)) :
    s.act (.step exited) =
      some { s with check := .running ⟨file, .working path b.languageId (.start b)⟩ } := by
  have hstep : Validation.reportStep s.rules s.files (s.depot.surroundings exited) s.depot.pool
      { file := file } =
      .next s.depot.pool ⟨file, .working path b.languageId (.start b)⟩ := by
    simp only [Validation.reportStep, Validation.step, hs]
    rfl
  rw [act_of_reportStep hcheck (.of_next hstep), hcheck]
  simp only [Task.notes, Task.round?, Validation.round?, List.append_nil]

/-- The check is where a step of its work leads to. -/
def Follows (s : Inspection) (file path languageId : String) :
    Task (Execute Round) Wait.Outcome → Prop
  | .running x => s.Works file path languageId x
  | .ended _ => s.IsOver
  | .abandoned => False

/-- A step of its work is a step of the check. -/
theorem leads_of_becomes {o : Task (Execute Round) Wait.Outcome}
    (hw : s.Works file path languageId x)
    (hx : (s.workStep path languageId s.depot.now x).Becomes q o) :
    s.Leads fun t => t.Follows file path languageId o ∧ t.depot.pool = q := by
  cases o with
  | running x' =>
    have ha := act_of_reportStep hw hx.within.within
    exact ⟨_, Run.refl.step (e := .step _) trivial ha, rfl, rfl⟩
  | ended r =>
    have hv : (Validation.step s.rules s.files (s.depot.surroundings fun _ => false) s.depot.pool
        ⟨file, .working path languageId x⟩).Becomes q (.ended (Validation.outcomeOf r)) :=
      .of_done hx.within_ended
    have ha := act_of_reportStep hw (.of_done hv.within_ended)
    exact ⟨_, Run.refl.step (e := .step _) trivial ha, ⟨_, rfl⟩, rfl⟩
  | abandoned =>
    generalize s.workStep path languageId s.depot.now x = st at hx
    cases hx

/-- What comes to the depot without any other visitor, comes without any other caller. -/
theorem run_of_depot {j : Nat} {d : Depot} (h : Depot.Run (Depot.Unaided j) s.depot d) :
    Run Unaided s { s with depot := d } := by
  induction h with
  | refl => exact .refl
  | step _ he ha ih => exact ih.step (e := .other _) ⟨j, he⟩ (by simp only [act, ha]; rfl)

/-- What a check can come to alone, comes without any other caller. -/
theorem run_of_alone {v : Validation} {d : Depot} {u : Task Validation Report}
    (hv : s.check = .running v)
    (h : Depot.Alone (fun w p v => v.reportStep s.rules s.files w p) s.depot v d u) :
    ∃ journal, Run Unaided s { s with depot := d, check := u, journal := journal } := by
  induction h with
  | refl =>
    refine ⟨s.journal, ?_⟩
    rw [← hv]
    exact .refl
  | waits _ hd ih =>
    obtain ⟨journal, hrun⟩ := ih
    exact ⟨journal, hrun.trans (run_of_depot hd)⟩
  | steps _ hs ih =>
    obtain ⟨journal, hrun⟩ := ih
    exact ⟨_, hrun.step (e := .step _) trivial (act_of_reportStep rfl hs)⟩

/-- What is possible from some time on, comes about. -/
theorem leads_of_free (hw : s.Works file path languageId x)
    (hfree : ∃ deadline, ∀ now, deadline ≤ now →
      (s.workStep path languageId now x).isBlocked = false) :
    ∃ w q o notes, x.Proceeds s.files path languageId w s.depot.pool q o notes ∧
      s.Leads fun t => t.Follows file path languageId o ∧ t.depot.pool = q := by
  obtain ⟨deadline, hfree⟩ := hfree
  let later : Inspection :=
    { s with depot := { s.depot with now := s.depot.now + deadline } }
  have hlater : Run Unaided s later := run_of_depot (Depot.run_elapse (j := 0) s.depot deadline)
  obtain ⟨q, o, hx⟩ := Step.becomes_of_free (hfree _ (Nat.le_add_left deadline s.depot.now))
  obtain ⟨t, ht, h⟩ := leads_of_becomes (s := later) hw hx
  exact ⟨_, q, o, _, proceeds_of_execute hx, t, hlater.trans ht, h⟩

end Inspection

end DiagnosticBroker
