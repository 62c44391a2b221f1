import DiagnosticBroker.Proofs.Validation.Standing

/-!
# What a report rests on

The journal of a check is a row of whole sessions, each of them opened, heard and closed in this
order, and what is left over belongs to the round that is under way. A report without an error is
made from the last session: from the diagnostics that its channel held when its wait returned, or
from silence.

Results:
* `forall₂_of_ofWireAll`: diagnostics are reported one by one.
* `tells_of_round`: what a step of a round adds to the journal.
* `told_of_reachable`: what the report of a check rests on.
-/

namespace DiagnosticBroker

open Pool (Grows Tracks)

variable {files : FileTree} {now : Time} {w : Surroundings} {p q : Pool} {added : List Note}

/-! ## Diagnostics as reported -/

/-- What is reported of a backend's diagnostic: its message, its source, the place where its range
starts, and its severity, which is between 1 and 4, or absent for an error. -/
structure Diagnostic.Reports (d : Wire.Diagnostic) (r : Diagnostic) : Prop where
  message : r.message = d.message
  source : r.source = d.source
  line : r.line = d.range.start.line
  column : r.column = d.range.start.character
  severity : d.severity = none ∧ r.severity = .error ∨
    ∃ n : Nat, d.severity = some (n : Int) ∧ 1 ≤ n ∧ n ≤ 4 ∧ r.severity.number = n

theorem Severity.number_of_ofNumber {n : Int} {s : Severity} (h : ofNumber n = .ok s) :
    (s.number : Int) = n := by
  unfold ofNumber ofNumber? at h
  split at h <;> rename_i hs <;> cases h
  have hfound := List.find?_some hs
  exact of_decide_eq_true hfound

theorem Diagnostic.reports_of_ofWire {d : Wire.Diagnostic} {r : Diagnostic} (h : ofWire d = .ok r) :
    Reports d r := by
  unfold ofWire at h
  split at h <;> rename_i hd
  · cases h
    exact ⟨rfl, rfl, rfl, rfl, .inl ⟨hd, rfl⟩⟩
  · split at h <;> rename_i s hs <;> cases h
    have hn := Severity.number_of_ofNumber hs
    refine ⟨rfl, rfl, rfl, rfl, .inr ⟨s.number, by rw [hd, hn], ?_, ?_, rfl⟩⟩
    · cases s <;> decide
    · cases s <;> decide

/-- Diagnostics are reported one by one, in order. -/
theorem Diagnostic.forall₂_of_ofWireAll {ds : List Wire.Diagnostic} {rs : List Diagnostic}
    (h : ofWireAll ds = .ok rs) : List.Forall₂ Reports ds rs := by
  induction ds generalizing rs with
  | nil =>
    cases h
    exact .nil
  | cons d ds ih =>
    simp only [ofWireAll] at h
    split at h <;> rename_i r hd
    · cases h
    · split at h <;> rename_i hds <;> cases h
      exact .cons (reports_of_ofWire hd) (ih hds)

/-! ## Sessions -/

/-- A session of a check, from its opening to its closing. -/
structure Visit where
  index : Nat
  waiter : Waiter
  /-- What the channel held when the wait returned. -/
  snapshot : Snapshot
  /-- What the wait returned. -/
  outcome : Wait.Outcome

namespace Visit

/-- What is noted of a session. -/
def notes (v : Visit) : List Note :=
  [.opened v.index v.waiter, .heard v.index v.waiter v.snapshot v.outcome,
    .closed v.index v.waiter]

/-- The session gives some diagnostics: those that its channel held when its wait returned, or none
because its wait timed out and silence is clean. -/
inductive Gives (b : Budget) (v : Visit) : List Wire.Diagnostic → Prop where
  | published {ds : List Wire.Diagnostic} (hs : v.snapshot = .published ds)
      (ho : v.outcome = .ok ds) : Gives b v ds
  | silent {text : String} (ho : v.outcome = .error (.timedOut text))
      (hb : b.silenceIsClean = true) : Gives b v []

/-- The session justifies a report: each diagnostic reports the one in its place that the channel
held when the wait returned, or there is none because the wait timed out and silence is clean. -/
inductive Supports (b : Budget) (v : Visit) (rs : List Diagnostic) : Prop where
  | published {ds : List Wire.Diagnostic} (hs : v.snapshot = .published ds)
      (ho : v.outcome = .ok ds) (hr : List.Forall₂ Diagnostic.Reports ds rs)
  | silent {text : String} (ho : v.outcome = .error (.timedOut text))
      (hb : b.silenceIsClean = true) (hr : rs = [])

theorem Gives.supports {b : Budget} {v : Visit} {ds : List Wire.Diagnostic} {rs : List Diagnostic}
    (h : v.Gives b ds) (hr : Diagnostic.ofWireAll ds = .ok rs) : v.Supports b rs := by
  cases h with
  | published hs ho => exact .published hs ho (Diagnostic.forall₂_of_ofWireAll hr)
  | silent ho hb =>
    cases hr
    exact .silent ho hb rfl

end Visit

/-- What has been noted comes to whole sessions, the last of which gives the outcome if that is a
success. -/
def Concludes (b : Budget) (told : List Note) (o : Wait.Outcome) : Prop :=
  ∃ visits : List Visit, told = visits.flatMap Visit.notes ∧
    ∀ ds, o = .ok ds → ∃ v, visits.getLast? = some v ∧ v.Gives b ds

theorem concludes_of_error (b : Budget) (f : Fault) : Concludes b [] (.error f) :=
  ⟨[], rfl, fun _ h => by cases h⟩

/-! ## Rounds -/

/-- What has been noted of the round that is under way. One that waits has a channel, and hears of
everything that comes through it. -/
inductive Round.Tells (p : Pool) : List Note → Option Round → Prop where
  | nothing : Tells p [] none
  | opening (o : Session.Opening) : Tells p [] (some (.opening o))
  | waiting {s : Session} {v : Wait} {x : Instance} (hw : v.waiter = s.waiter)
      (hx : p.instance? s.index = some x)
      (hlt : s.waiter.subscription < x.collector.channels.length) (hv : v.Heeds x.collector) :
      Tells p [.opened s.index s.waiter] (some (.waiting s v))
  | closing {s : Session} {o : Wait.Outcome} {snapshot : Snapshot}
      (ho : ∀ ds, o = .ok ds → snapshot = .published ds) :
      Tells p [.opened s.index s.waiter, .heard s.index s.waiter snapshot o] (some (.closing s o))

/-- Whatever others do, a round hears of everything that comes through its channel. -/
theorem Round.Tells.tracks {r : Option Round} (h : Tells p added r) (ht : p.Tracks q) :
    Tells q added r := by
  cases h with
  | nothing => exact .nothing
  | opening o => exact .opening o
  | closing ho => exact .closing ho
  | waiting hw hx hlt hv =>
    obtain ⟨y, hy, hxy⟩ := ht.instance? hx
    exact .waiting hw hy (Nat.lt_of_lt_of_le hlt hxy.length) (hv.tracks hxy (hw ▸ hlt))

theorem outcome_keep (s : Session) (o : Wait.Outcome) :
    (s.keep o).index = s.index ∧ (s.keep o).waiter = s.waiter := by
  cases o <;> exact ⟨rfl, rfl⟩

/-- The outcome of a round that has heard something. -/
theorem gives_of_outcome {b : Budget} {v : Visit} {o : Wait.Outcome} {ds : List Wire.Diagnostic}
    (hv : v.outcome = o) (ho : ∀ ds, o = .ok ds → v.snapshot = .published ds)
    (h : Round.outcomeOf b o = .ok ds) : v.Gives b ds := by
  unfold Round.outcomeOf at h
  split at h
  · split at h <;> rename_i hb <;> cases h
    exact .silent hv hb
  · subst h
    exact .published (ho ds rfl) hv

/-- **Notes of a round.** What a round that goes on has told, fits it; one that has ended has told of
whole sessions. -/
theorem tells_of_round {r : Round} {t : Task Round Wait.Outcome} {told : List Note}
    (h : r.Goes files now p q t added) (hp : p.Grounded) (hr : Round.Tells p told (some r)) :
    (∀ r', t = .running r' → Round.Tells q (told ++ added) (some r')) ∧
      ∀ o, t = .ended o → Concludes p.budget (told ++ added) o := by
  cases h with
  | reads =>
    cases hr
    refine ⟨fun r' hr' => ?_, fun o ho => by cases ho⟩
    cases hr'
    exact .opening _
  | unreadable | refused =>
    cases hr
    refine ⟨fun r' hr' => (by cases hr'), fun o ho => ?_⟩
    cases ho
    exact concludes_of_error _ _
  | @opens o text x y version waiter ht hx ho =>
    cases hr
    refine ⟨fun r' hr' => ?_, fun o ho => by cases ho⟩
    cases hr'
    have hy : (p.setInstance o.index y).instance? o.index = some y := by
      rw [Pool.instance?_setInstance hx, if_pos rfl]
    have hlt := (Instance.tracks_of_opens (hp hx) (Instance.opens_of_openDocument ho)).2
    exact Round.Tells.waiting (s := ⟨o.index, o.languageId, waiter, none⟩) rfl hy hlt
      (Wait.heeds_of_begin rfl)
  | waits hx hv =>
    cases hr with
    | waiting hw hx' hlt hheeds =>
      rw [hx] at hx'
      cases hx'
      refine ⟨fun r' hr' => ?_, fun o ho => by cases ho⟩
      cases hr'
      exact .waiting ((Wait.waiter_of_next hv).trans hw) hx hlt (Wait.heeds_of_next hv)
  | @hears s v x o hx hv =>
    cases hr with
    | waiting hw hx' hlt hheeds =>
      rw [hx] at hx'
      cases hx'
      refine ⟨fun r' hr' => ?_, fun o ho => by cases ho⟩
      cases hr'
      obtain ⟨hindex, hwaiter⟩ := outcome_keep s o
      have htold : Round.Tells p [.opened (s.keep o).index (s.keep o).waiter,
          .heard (s.keep o).index (s.keep o).waiter (x.collector.channelOf s.waiter).snapshot o]
          (some (.closing (s.keep o) o)) := by
        refine .closing fun ds hds => ?_
        subst hds
        rw [← hw]
        exact hheeds.published_of_done hv
      rwa [hindex, hwaiter] at htold
  | @closes s o =>
    cases hr with
    | @closing _ _ snapshot ho =>
      refine ⟨fun r' hr' => (by cases hr'), fun o' ho' => ?_⟩
      cases ho'
      refine ⟨[⟨s.index, s.waiter, snapshot, o⟩], rfl, fun ds hds => ⟨_, rfl, ?_⟩⟩
      exact gives_of_outcome rfl ho hds

/-! ## Work with restarts -/

/-- **Notes of the work.** What the work has told comes to whole sessions and what fits the round
that is under way. -/
theorem tells_of_proceeds {path languageId : String} {x : Execute Round}
    {t : Task (Execute Round) Wait.Outcome} {told : List Note}
    (h : x.Proceeds files path languageId w p q t added) (hp : p.Grounded)
    (hr : Round.Tells p told x.run?) :
    (∀ x', t = .running x' → ∃ visits : List Visit, ∃ rest,
        told ++ added = visits.flatMap Visit.notes ++ rest ∧ Round.Tells q rest x'.run?) ∧
      ∀ o, t = .ended o → Concludes p.budget (told ++ added) o := by
  have hidle : (∀ i r, x.phase ≠ .running i r) → told = [] := by
    intro hx
    have hrun : x.run? = none := by
      unfold Execute.run?
      split
      · exact absurd ‹_› (hx _ _)
      · rfl
    rw [hrun] at hr
    cases hr
    rfl
  cases h with
  | ensures hx | retires hx | retired hx | restarts hx =>
    rw [hidle (by simp [hx])]
    refine ⟨fun x' hx' => ?_, fun o ho => by cases ho⟩
    cases hx'
    exact ⟨[], [], rfl, .nothing⟩
  | begins hx =>
    rw [hidle (by simp [hx])]
    refine ⟨fun x' hx' => ?_, fun o ho => by cases ho⟩
    cases hx'
    exact ⟨[], [], rfl, .opening _⟩
  | unready hx =>
    rw [hidle (by simp [hx])]
    refine ⟨fun x' hx' => (by cases hx'), fun o ho => ?_⟩
    cases ho
    exact concludes_of_error _ _
  | goesOn hx hround =>
    rw [run?_of_phase hx] at hr
    refine ⟨fun x' hx' => ?_, fun o ho => by cases ho⟩
    cases hx'
    exact ⟨[], _, rfl, (tells_of_round hround hp hr).1 _ rfl⟩
  | gives hx hround =>
    rw [run?_of_phase hx] at hr
    refine ⟨fun x' hx' => (by cases hx'), fun o ho => ?_⟩
    cases ho
    exact (tells_of_round hround hp hr).2 _ rfl
  | breaks hx hround hlt =>
    rw [run?_of_phase hx] at hr
    refine ⟨fun x' hx' => ?_, fun o ho => by cases ho⟩
    cases hx'
    obtain ⟨visits, hvisits, -⟩ := (tells_of_round hround hp hr).2 _ rfl
    exact ⟨visits, [], by rw [hvisits, List.append_nil], .nothing⟩

/-! ## Checks -/

/-- What a report rests on: the journal is a row of whole sessions, each opened, heard and closed
once, and the last of them justifies the diagnostics unless there is an error; if there is one, there
are no diagnostics. -/
structure Report.Accounted (r : Report) (file : String) (b : Budget) (journal : List Note) :
    Prop where
  path : r.path = file
  sessions : ∃ visits : List Visit, journal = visits.flatMap Visit.notes ∧
    (r.error = none → ∃ v, visits.getLast? = some v ∧ v.Supports b r.diagnostics)
  failed : r.error ≠ none → r.diagnostics = []

theorem accounted_of_fault (file : String) (f : BrokerFault) {b : Budget} {visits : List Visit}
    {journal : List Note} (hj : journal = visits.flatMap Visit.notes) :
    (Validation.report file (.error f)).Accounted file b journal where
  path := rfl
  sessions := ⟨visits, hj, fun h => by cases h⟩
  failed _ := rfl

/-- The report of a check whose work has ended. -/
theorem accounted_of_concludes (file : String) {b : Budget} {visits : List Visit}
    {told : List Note} {o : Wait.Outcome} (h : Concludes b told o) :
    (Validation.report file (Validation.outcomeOf o)).Accounted file b
      (visits.flatMap Visit.notes ++ told) := by
  obtain ⟨last, rfl, hgives⟩ := h
  have hj : visits.flatMap Visit.notes ++ last.flatMap Visit.notes =
      (visits ++ last).flatMap Visit.notes := List.flatMap_append.symm
  cases o with
  | error f => exact accounted_of_fault file (.backend f) hj
  | ok ds =>
    cases hr : Diagnostic.ofWireAll ds with
    | error f =>
      rw [Validation.outcomeOf, hr]
      exact accounted_of_fault file (.backend f) hj
    | ok rs =>
      rw [Validation.outcomeOf, hr]
      obtain ⟨v, hv, hg⟩ := hgives ds rfl
      refine ⟨rfl, ⟨visits ++ last, hj, fun _ => ⟨v, ?_, hg.supports hr⟩⟩, fun h => absurd rfl h⟩
      rw [List.getLast?_append, hv, Option.some_or]

namespace Inspection

variable {rules : Rules} {file : String} {s s' : Inspection} {e : Event}

/-- What the journal of an inspection says of its check. -/
structure Told (file : String) (s : Inspection) : Prop where
  running : ∀ {v}, s.check = .running v → ∃ visits : List Visit, ∃ rest,
    s.journal = visits.flatMap Visit.notes ++ rest ∧ Round.Tells s.depot.pool rest v.round?
  ended : ∀ {r}, s.check = .ended r → r.Accounted file s.depot.pool.budget s.journal

theorem Told.steps (h : s.Told file) (hs : s.Standing rules file) {v : Validation} {q : Pool}
    {t : Task Validation Report} (hv : s.check = .running v)
    (hg : v.Goes s.rules s.files w s.depot.pool q t added) :
    Told file { s with
      depot := { s.depot with pool := q }, check := t, journal := s.journal ++ added } := by
  obtain ⟨visits, told, hjournal, htells⟩ := h.running hv
  have hbudget : q.budget = s.depot.pool.budget := (stirs_of_goes hg).grows.budget
  have hfile := hs.file_eq hv
  cases hg with
  | rejects hp =>
    rw [Validation.round?, hp] at htells
    cases htells
    refine ⟨fun hv' => (by cases hv'), fun {r} hr => ?_⟩
    cases hr
    rw [hfile]
    exact accounted_of_fault file _ (by rw [hjournal, List.append_nil, List.append_nil])
  | selects hp =>
    rw [Validation.round?, hp] at htells
    cases htells
    refine ⟨fun hv' => ?_, fun hr => by cases hr⟩
    cases hv'
    exact ⟨visits, [], by simp only [hjournal, List.append_nil], .nothing⟩
  | works hp hx =>
    rw [round?_of_phase hp] at htells
    refine ⟨fun hv' => ?_, fun hr => by cases hr⟩
    cases hv'
    obtain ⟨more, rest, heq, hrest⟩ := (tells_of_proceeds hx hs.grounded htells).1 _ rfl
    refine ⟨visits ++ more, rest, ?_, hrest⟩
    simp only [hjournal, List.append_assoc, heq, List.flatMap_append]
  | ends hp hx =>
    rw [round?_of_phase hp] at htells
    refine ⟨fun hv' => (by cases hv'), fun {r} hr => ?_⟩
    cases hr
    have hend := (tells_of_proceeds hx hs.grounded htells).2 _ rfl
    simp only [hfile, hbudget, hjournal, List.append_assoc]
    exact accounted_of_concludes file hend

theorem Told.happens (h : s.Told file) (hs : s.Standing rules file) (he : s.Happens e s') :
    s'.Told file := by
  cases he with
  | edits t => exact ⟨h.running, h.ended⟩
  | steps hv hg => exact h.steps hs hv hg
  | others ha =>
    have htracks := Depot.tracks_of_act hs.grounded ha
    have hbudget := (Depot.grows_of_happens (Depot.happens_of_act ha)).budget
    refine ⟨fun hv => ?_, fun {r} hr => ?_⟩
    · obtain ⟨visits, rest, hjournal, htells⟩ := h.running hv
      exact ⟨visits, rest, hjournal, htells.tracks htracks⟩
    · have haccounted := h.ended hr
      rw [← hbudget] at haccounted
      exact haccounted

/-- **Reports.** The report of a check is about its file, and rests on the sessions of the check. -/
theorem told_of_reachable (h : Reachable rules file s) : s.Told file := by
  refine h.induct (fun files budget roots directory isProcess clientProcess => ?_)
    fun s e t hr ih ha => ih.happens (standing_of_reachable hr) (happens_of_act ha)
  refine ⟨fun hv => ?_, fun hr => by cases hr⟩
  cases hv
  exact ⟨[], [], rfl, .nothing⟩

end Inspection

end DiagnosticBroker
