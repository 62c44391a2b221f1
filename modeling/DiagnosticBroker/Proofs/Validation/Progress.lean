import DiagnosticBroker.Proofs.Validation.Leading

/-!
# Checks come to an end

An instance is found or started after finitely many steps, a round with it takes finitely many
steps, and there are only so many rounds as a start is tried. So a check can always be brought to its
end without any other caller, which is more than that it cannot be stuck.

Results:
* `leads_ensuring`: work gets an instance, or ends.
* `leads_running`: a round ends, and with it the work unless there is another round.
* `ends_of_reachable`: a check can always be brought to its end.
-/

namespace DiagnosticBroker.Inspection

variable {rules : Rules} {file path languageId : String} {s t : Inspection} {b : Backend}
  {n i j : Nat} {q : Pool}

/-! ## Getting an instance -/

/-- The work has been given an instance, or has ended. -/
def Served (file path languageId : String) (b : Backend) (n : Nat) (s : Inspection) : Prop :=
  s.IsOver ∨ ∃ i r, s.Works file path languageId ⟨b, n, .running i r⟩

/-- What follows when work has been given an instance, or none: its first round, or its report. -/
def granted (file path languageId : String) (b : Backend) (n limit : Nat) (q : Pool) :
    Except Fault Nat → Step Pool Validation Report
  | .ok i => .next q ⟨file, .working path languageId ⟨b, n, .running i
      (.opening ⟨i, path, languageId, limit, none⟩)⟩⟩
  | .error f => .done q (Validation.report file (Validation.outcomeOf (.error f)))

/-- **Instances.** Work that wants an instance gets one, or ends. -/
theorem leads_ensuring {e : Ensure} (hr : Reachable rules file s)
    (hw : s.Works file path languageId ⟨b, n, .ensuring e⟩) :
    s.Leads (Served file path languageId b n) := by
  have hs := standing_of_reachable hr
  obtain ⟨d, r, hd⟩ := Depot.Seeks.serves ⟨hs.orderly, hs.made, (hs.stands hw rfl).2⟩
  have hstep : ∀ w p (e : Ensure), Validation.reportStep s.rules s.files w p
      ⟨file, .working path languageId ⟨b, n, .ensuring e⟩⟩ =
      (e.step w p).within (fun e => ⟨file, .working path languageId ⟨b, n, .ensuring e⟩⟩)
        (granted file path languageId b n p.budget.maxFileSizeBytes) := by
    intro w p e
    simp only [Validation.reportStep, Validation.step, Execute.step]
    cases e.step w p with
    | blocked | next | later => rfl
    | done q r => cases r <;> rfl
  obtain ⟨w, p, hnext⟩ := hd.within_ended hstep
  cases r with
  | ok i =>
    obtain ⟨journal, hrun⟩ := run_of_alone hw (hnext _ _ (.next _ _))
    exact ⟨_, hrun, .inr ⟨_, _, rfl⟩⟩
  | error f =>
    obtain ⟨journal, hrun⟩ := run_of_alone hw (hnext _ _ (.done _ _))
    exact ⟨_, hrun, .inl ⟨_, rfl⟩⟩

/-! ## Rounds and restarts -/

/-- **Rounds.** A round ends, and with it the work, unless the instance is taken out of use for
another round. -/
theorem leads_running {r : Round} (hr : Reachable rules file s)
    (hw : s.Works file path languageId ⟨b, n, .running i r⟩) :
    s.Leads fun t => t.IsOver ∨ n + 1 < t.depot.pool.budget.startAttempts ∧
      ∃ r, t.Works file path languageId ⟨b, n, .retiring i r⟩ := by
  refine leads_of_measure (I := fun m t => ∃ r : Round,
    r.effort t.depot.pool = m ∧ t.Works file path languageId ⟨b, n, .running i r⟩) ?_ _ hr
    ⟨r, rfl, hw⟩
  rintro m t ht ⟨r, rfl, hw⟩
  obtain ⟨hindex, hbrings⟩ := (standing_of_reachable ht).stands hw rfl
  obtain ⟨x, hx⟩ := Depot.exists_of_brings hbrings (standing_of_reachable ht).made
  obtain ⟨deadline, hfree⟩ := Round.free_round t.files ⟨x, hindex ▸ hx⟩
  obtain ⟨w, q, o, notes, hstep, hleads⟩ := leads_of_free hw ⟨deadline, fun now hnow =>
    Instance.isBlocked_within (hfree now hnow) fun q o => by
      cases o with
      | ok ds => rfl
      | error f =>
        simp only [Execute.ran]
        split_ifs <;> rfl⟩
  refine hleads.trans ?_
  rintro u _ ⟨hw, hq⟩
  refine .here ?_
  cases hstep with
  | goesOn hp hgoes =>
    cases hp
    exact .inr ⟨_, hq ▸ Round.effort_of_goes hgoes, _, rfl, hw⟩
  | gives => exact .inl (.inl hw)
  | breaks hp hgoes hlt =>
    cases hp
    exact .inl (.inr ⟨hq ▸ hlt, _, hw⟩)
  | ensures hp | begins hp | unready hp | retires hp | retired hp | restarts hp => cases hp

theorem leads_pausing {deadline : Time}
    (hw : s.Works file path languageId ⟨b, n, .pausing deadline⟩) :
    s.Leads fun t => t.Works file path languageId ⟨b, n + 1, .ensuring ⟨b, .look⟩⟩ := by
  obtain ⟨w, q, o, notes, hstep, hleads⟩ := leads_of_free hw ⟨deadline, fun now hnow => by
    simp only [workStep, Execute.step, if_pos hnow]
    rfl⟩
  refine hleads.trans ?_
  rintro t _ ⟨hw, -⟩
  refine .here ?_
  cases hstep with
  | restarts => exact hw
  | ensures hp | begins hp | unready hp | goesOn hp | gives hp | breaks hp | retires hp
    | retired hp => cases hp

theorem leads_retiring {r : Retire} (hr : Reachable rules file s)
    (hw : s.Works file path languageId ⟨b, n, .retiring i r⟩) :
    s.Leads fun t => t.Works file path languageId ⟨b, n + 1, .ensuring ⟨b, .look⟩⟩ := by
  have hs := standing_of_reachable hr
  obtain ⟨d, hd, -⟩ := Depot.retire_ends hs.orderly hs.made (hs.stands hw rfl) r
  have hstep : ∀ w p (r : Retire), Validation.reportStep s.rules s.files w p
      ⟨file, .working path languageId ⟨b, n, .retiring i r⟩⟩ =
      (r.step w p b.command i).within
        (fun r => ⟨file, .working path languageId ⟨b, n, .retiring i r⟩⟩)
        fun q () => .next q ⟨file, .working path languageId
          ⟨b, n, .pausing (deadlineAfter w.now q.budget.restartBackoff)⟩⟩ := by
    intro w p r
    simp only [Validation.reportStep, Validation.step, Execute.step]
    cases r.step w p b.command i <;> rfl
  obtain ⟨w, p, hnext⟩ := hd.within_ended hstep
  obtain ⟨journal, hrun⟩ := run_of_alone hw (hnext _ _ (.next _ _))
  obtain ⟨t, ht, hworks⟩ := leads_pausing (s := { s with depot := d, journal := journal, check := _ }) rfl
  exact ⟨t, hrun.trans ht, hworks⟩

theorem budget_of_run {P : Inspection → Event → Prop} (h : Run P s t) :
    t.depot.pool.budget = s.depot.pool.budget := by
  induction h with
  | refl => rfl
  | step _ _ ha ih =>
    rw [← ih]
    cases happens_of_act ha with
    | steps hv hg => exact (stirs_of_goes hg).grows.budget
    | others hd => exact (Depot.grows_of_happens (Depot.happens_of_act hd)).budget
    | edits => rfl

/-- There are only so many rounds as a start is tried. -/
theorem over_of_ensuring {e : Ensure} (hr : Reachable rules file s)
    (hw : s.Works file path languageId ⟨b, n, .ensuring e⟩) : s.Leads IsOver := by
  refine leads_of_measure (I := fun m t => ∃ n e,
    t.depot.pool.budget.startAttempts - n = m ∧
      t.Works file path languageId ⟨b, n, .ensuring e⟩) ?_ _ hr ⟨n, e, rfl, hw⟩
  rintro m t ht ⟨n, e, rfl, hw⟩
  refine (leads_ensuring ht hw).trans fun u hu hserved => ?_
  have hbudget := budget_of_run hu
  rcases hserved with hover | ⟨i, r, hw⟩
  · exact .here (.inl hover)
  · have hu := ht.run hu
    refine (leads_running hu hw).trans fun v hv hran => ?_
    have hbudget := (budget_of_run hv).trans hbudget
    rcases hran with hover | ⟨hlt, r, hw⟩
    · exact .here (.inl hover)
    · refine (leads_retiring (hu.run hv) hw).trans fun x hx hw => .here (.inr ⟨_, ?_, _, _, rfl, hw⟩)
      rw [budget_of_run hx]
      rw [← hbudget]
      omega

/-- **Ends.** A check can be brought to its end by what comes without any other caller. -/
theorem ends_of_reachable (hr : Reachable rules file s) : s.Leads IsOver := by
  cases hcheck : s.check with
  | ended r => exact .here ⟨r, hcheck⟩
  | abandoned => exact absurd hcheck (standing_of_reachable hr).kept
  | running v =>
    obtain ⟨f, phase⟩ := v
    obtain rfl : f = file := (standing_of_reachable hr).file_eq hcheck
    cases phase with
    | working path languageId x =>
      have hw : s.Works f path languageId x := hcheck
      obtain ⟨b, n, phase⟩ := x
      cases phase with
      | ensuring e => exact over_of_ensuring hr hw
      | running i r =>
        refine (leads_running hr hw).trans fun t ht h => ?_
        rcases h with hover | ⟨-, r, hw⟩
        · exact .here hover
        · exact (leads_retiring (hr.run ht) hw).trans fun u hu hw =>
            over_of_ensuring ((hr.run ht).run hu) hw
      | retiring i r =>
        exact (leads_retiring hr hw).trans fun t ht hw => over_of_ensuring (hr.run ht) hw
      | pausing deadline =>
        exact (leads_pausing hw).trans fun t ht hw => over_of_ensuring (hr.run ht) hw
    | begin =>
      cases hselect : Validation.select s.rules s.files s.depot.pool.directory f with
      | error fault =>
        have ha := act_of_rejects (fun _ => false) hcheck hselect
        exact ⟨_, Run.refl.step (e := .step _) trivial ha, _, rfl⟩
      | ok chosen =>
        have ha := act_of_selects (fun _ => false) hcheck hselect
        have hrun : Run Unaided s _ := Run.refl.step (e := .step _) trivial ha
        obtain ⟨t, ht, hover⟩ := over_of_ensuring (hr.run hrun) rfl
        exact ⟨t, hrun.trans ht, hover⟩

end DiagnosticBroker.Inspection
