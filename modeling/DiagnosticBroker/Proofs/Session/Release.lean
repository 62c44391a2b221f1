import DiagnosticBroker.Proofs.Session.References
import DiagnosticBroker.Proofs.Validation.Leading
import DiagnosticBroker.Proofs.Validation.Outcome

/-!
# Which documents stay open

A guest has a document open from the step that opens it to the one that closes it, or, if the session is
given up meanwhile, until somebody else has closed it. Every guest gets there by steps of the session and
by time that passes, except for those who are lost: they have given up while they waited to close their
documents. Since an instance counts the guests who have a document open, the documents of the lost ones,
and no others, are open when nothing is left to be done for any guest.

Results:
* `ends_of_reachable`: what is left to be done for the guests comes to an end.
* `released_of_reachable`: only the documents of lost guests stay open, and every other one is closed as
  often as it was opened.
* `open_of_deserted`: a document that stays open.
-/

namespace DiagnosticBroker.Gathering

variable {s t : Gathering} {e : Event} {n : Nat} {g : Guest} {r : Round} {q : Pool}

/-! ## Sessions come to an end -/

/-- Steps of guests, documents that were left open and are closed, and time that passes. -/
def Event.isUnaided : Event → Bool
  | .step _ => true
  | .tidy _ => true
  | .other (.elapse _ _) => true
  | _ => false

theorem Event.isQuiet_of_isUnaided (h : e.isUnaided) : e.isQuiet := by
  unfold isUnaided at h
  split at h
  · rfl
  · rfl
  · rfl
  · cases h

/-- Nothing is left to be done for any guest. -/
def IsOver (s : Gathering) : Prop := ∀ g ∈ s.guests, g.isOver = true

/-- What a step of a session leads to. -/
theorem act_of_becomes {o : Task Round Wait.Outcome} (hg : s.guests[n]? = some g)
    (hr : g.state = .busy r)
    (ho : (r.step s.files s.depot.now s.depot.pool).Becomes q o) :
    (∃ r', o = .running r' ∧ s.act (.step n) =
      some (s.setGuest n q ⟨.busy r', g.marks ++ r.marks o⟩)) ∨
    ∃ a, o = .ended a ∧ s.act (.step n) = some (s.setGuest n q ⟨.ended a, g.marks ++ r.marks o⟩) := by
  simp only [act, hg, hr, Option.bind_eq_bind, Option.bind_some]
  generalize r.step s.files s.depot.now s.depot.pool = st at ho
  cases ho with
  | next q r' | later q r' => exact .inl ⟨r', rfl, rfl⟩
  | done q a => exact .inr ⟨a, rfl, rfl⟩

/-- A guest is done in another state, and nothing has become of the others. -/
structure Settles (s : Gathering) (n : Nat) (t : Gathering) : Prop where
  run : Run (·.isUnaided) s t
  length : t.guests.length = s.guests.length
  others : ∀ m, m ≠ n → t.guests[m]? = s.guests[m]?
  isOver : ∀ g, t.guests[n]? = some g → g.isOver = true

/-- What is done to one guest. -/
theorem settles_of_run {u : Gathering} {g' : Guest} (h : Run (·.isUnaided) s u)
    (hu : u.guests = s.guests.set n g') (ht : u.Settles n t) : s.Settles n t where
  run := h.trans ht.run
  length := by rw [ht.length, hu, List.length_set]
  others m hm := by rw [ht.others m hm, hu, List.getElem?_set_ne hm.symm]
  isOver := ht.isOver

theorem settles_self (h : ∀ g, s.guests[n]? = some g → g.isOver = true) : s.Settles n s :=
  ⟨.refl, rfl, fun _ _ => rfl, h⟩

/-- A session that is under way is at an instance of the pool. -/
theorem exists_instance {p : Pool} (h : g.Accounted p) (hr : g.state = .busy r) :
    ∃ x, p.instance? r.index = some x := by
  cases h with
  | opening hx | waiting hx | closing hx =>
    cases hr
    exact hx
  | failed | closed | leaving | declined | tidied | lost => cases hr

/-- A session comes to its end by its own steps, each after enough time. -/
theorem settles_of_busy (hs : s.Balanced) (hb : s.guests.length ≤ Word.maxU32)
    (hg : s.guests[n]? = some g) (hr : g.state = .busy r) : ∃ t, s.Settles n t := by
  induction hm : r.effort s.depot.pool using Nat.strongRecOn generalizing s g r with
  | ind m ih =>
    have hx := exists_instance (hs.accounted g (List.mem_of_getElem? hg)) hr
    obtain ⟨deadline, hfree⟩ := Round.free_round s.files hx
    let later : Gathering := { s with depot := { s.depot with now := s.depot.now + deadline } }
    have hlater : Run (·.isUnaided) s later :=
      Run.refl.step (e := .other (.elapse deadline 0)) rfl rfl
    obtain ⟨q, o, ho⟩ := Step.becomes_of_free (hfree _ (Nat.le_add_left deadline s.depot.now))
    have hlt : n < s.guests.length := (List.getElem?_eq_some_iff.mp hg).1
    rcases act_of_becomes (s := later) hg hr ho with ⟨r', rfl, ha⟩ | ⟨a, rfl, ha⟩
    · have hrun := hlater.step (e := .step n) rfl ha
      have hless : r'.effort q < m := hm ▸ Round.effort_of_goes (goes_of_round ho)
      have hfewer : (later.setGuest n q ⟨.busy r', g.marks ++ r.marks (.running r')⟩).guests.length ≤
          Word.maxU32 := by rwa [setGuest, List.length_set]
      have hnext := hs.run (hrun.mono fun _ => Event.isQuiet_of_isUnaided) hfewer
      obtain ⟨t, ht⟩ := ih _ hless hnext hfewer (List.getElem?_set_self hlt) rfl rfl
      exact ⟨t, settles_of_run hrun rfl ht⟩
    · have hrun := hlater.step (e := .step n) rfl ha
      refine ⟨_, settles_of_run hrun rfl (settles_self fun g' hg' => ?_)⟩
      rw [setGuest, List.getElem?_set_self hlt] at hg'
      cases hg'
      rfl

/-- A document that was left open is closed. -/
theorem settles_of_leaving {k : Nat} (hg : s.guests[n]? = some g) (hk : g.state = .leaving k) :
    ∃ t, s.Settles n t := by
  have hlt : n < s.guests.length := (List.getElem?_eq_some_iff.mp hg).1
  have ha : s.act (.tidy n) = some (s.setGuest n (s.depot.pool.closeLeftOpen k) ⟨.gone, g.marks ++
      (s.depot.pool.leftOpen[k]?.map fun d => Mark.closed d.1 d.2).toList⟩) := by
    simp only [act, hg, hk, Option.bind_eq_bind, Option.bind_some]
  have hrun : Run (·.isUnaided) s _ := Run.refl.step (e := .tidy n) rfl ha
  refine ⟨_, settles_of_run hrun rfl (settles_self fun g' hg' => ?_)⟩
  rw [setGuest, List.getElem?_set_self hlt] at hg'
  cases hg'
  rfl

theorem settles_of_balanced (hs : s.Balanced) (hb : s.guests.length ≤ Word.maxU32) (n : Nat) :
    ∃ t, s.Settles n t := by
  cases hg : s.guests[n]? with
  | none => exact ⟨s, settles_self fun g hg' => by rw [hg] at hg'; cases hg'⟩
  | some g =>
    have hself : g.isOver = true → ∃ t, s.Settles n t := fun hover =>
      ⟨s, settles_self fun g' hg' => by
        rw [hg] at hg'
        cases hg'
        exact hover⟩
    obtain ⟨state, marks⟩ := g
    cases state with
    | busy r => exact settles_of_busy hs hb hg rfl
    | leaving k => exact settles_of_leaving hg rfl
    | ended | gone | lost => exact hself rfl

/-- **Ends.** What is left to be done for the guests comes to an end. -/
theorem ends_of_reachable (h : Reachable s) (hb : s.guests.length ≤ Word.maxU32) :
    ∃ t, Run (·.isUnaided) s t ∧ t.IsOver ∧ t.guests.length = s.guests.length := by
  have hfirst : ∀ n, ∃ t, Run (·.isUnaided) s t ∧ t.guests.length = s.guests.length ∧
      ∀ (m : Nat) (g : Guest), m < n → t.guests[m]? = some g → g.isOver = true := by
    intro n
    induction n with
    | zero => exact ⟨s, .refl, rfl, fun m g hm => absurd hm (Nat.not_lt_zero m)⟩
    | succ n ih =>
      obtain ⟨t, ht, hlength, hover⟩ := ih
      have hfewer := hlength ▸ hb
      have hbalanced := (balanced_of_reachable h hb).run
        (ht.mono fun _ => Event.isQuiet_of_isUnaided) hfewer
      obtain ⟨u, hu⟩ := settles_of_balanced hbalanced hfewer n
      refine ⟨u, ht.trans hu.run, hu.length.trans hlength, fun m g hm hg => ?_⟩
      rcases Nat.lt_succ_iff_lt_or_eq.mp hm with hm | rfl
      · rw [hu.others m (Nat.ne_of_lt hm)] at hg
        exact hover m g hm hg
      · exact hu.isOver g hg
  obtain ⟨t, ht, hlength, hover⟩ := hfirst s.guests.length
  refine ⟨t, ht, fun g hg => ?_, hlength⟩
  obtain ⟨m, hm⟩ := List.mem_iff_getElem?.mp hg
  have hlt : m < t.guests.length := (List.getElem?_eq_some_iff.mp hm).1
  exact hover m g (hlength ▸ hlt) hm

/-! ## What stays open -/

/-- What is marked down of a guest says whether a document is open. -/
theorem marks_of_accounted {p : Pool} (h : g.Accounted p) : g.marks = [] ∨
    ∃ i uri, g.marks = [.opened i uri] ∨ g.marks = [.opened i uri, .closed i uri] := by
  cases h with
  | opening | failed | declined => exact .inl rfl
  | waiting | closing | leaving | lost => exact .inr ⟨_, _, .inl rfl⟩
  | closed | tidied => exact .inr ⟨_, _, .inr rfl⟩

/-- What is marked down of a guest for whom nothing is left to be done. -/
theorem marks_of_isOver {p : Pool} (h : g.Accounted p) (hover : g.isOver = true) :
    g.marks = [] ∧ g.isLost = false ∨ ∃ i uri, g.marks = [.opened i uri] ∧ g.isLost = true ∨
      g.marks = [.opened i uri, .closed i uri] ∧ g.isLost = false := by
  cases h with
  | opening | waiting | closing | leaving => cases hover
  | failed | declined => exact .inl ⟨rfl, rfl⟩
  | closed | tidied => exact .inr ⟨_, _, .inr ⟨rfl, rfl⟩⟩
  | lost => exact .inr ⟨_, _, .inl ⟨rfl, rfl⟩⟩

/-- An instance has no record of an open document just if no guest has one open there. -/
theorem Balanced.documents_eq_nil_iff (hs : s.Balanced) {i : Nat} {x : Instance}
    (hx : s.depot.pool.instance? i = some x) :
    x.documents = [] ↔ ∀ g ∈ s.guests, ∀ uri, g.marks ≠ [.opened i uri] := by
  have hnone : (∀ uri, x.references uri = 0) ↔ ∀ g ∈ s.guests, ∀ uri, g.marks ≠ [.opened i uri] := by
    simp only [← Pool.references_eq hx, hs.references, List.countP_eq_zero, decide_eq_true_eq]
    exact forall_comm.trans (forall_congr' fun g => forall_comm)
  rw [← hnone]
  refine ⟨fun hnil uri => ?_, (hs.counted i x hx).documents_eq_nil⟩
  rw [Instance.references, hnil]
  rfl

/-- Whoever is lost has been so before, or gives up now, while the session waits to close its
document. -/
theorem isLost_of_act {g' : Guest} (ha : s.act e = some t) (hg' : t.guests[n]? = some g')
    (hlost : g'.isLost = true) :
    ∃ g, s.guests[n]? = some g ∧
      (g.isLost = true ∨ e = .giveUp n ∧ ∃ v o, g.state = .busy (.closing v o)) := by
  have hset : ∀ {m : Nat} {p : Pool} {g₁ : Guest}, (s.setGuest m p g₁).guests[n]? = some g' →
      g₁.isLost = false → ∃ g, s.guests[n]? = some g ∧ g.isLost = true := by
    intro m p g₁ hg hfound
    rw [setGuest, List.getElem?_set] at hg
    split_ifs at hg
    · cases hg
      rw [hfound] at hlost
      cases hlost
    · exact ⟨g', hg, hlost⟩
  cases happens_of_act ha with
  | arrives hx =>
    rw [List.getElem?_append] at hg'
    split_ifs at hg'
    · exact ⟨g', hg', .inl hlost⟩
    · rw [List.mem_singleton.mp (List.mem_of_getElem? hg')] at hlost
      cases hlost
  | goes | ends | tidies =>
    obtain ⟨g, hg, hlost⟩ := hset hg' rfl
    exact ⟨g, hg, .inl hlost⟩
  | @givesUp m g₁ r hg hr =>
    cases r with
    | opening | waiting =>
      obtain ⟨g, hg, hlost⟩ := hset hg' rfl
      exact ⟨g, hg, .inl hlost⟩
    | closing v o =>
      rw [setGuest, List.getElem?_set] at hg'
      split_ifs at hg' with hm
      · exact ⟨g₁, hm ▸ hg, .inr ⟨hm ▸ rfl, v, o, hr⟩⟩
      · exact ⟨g', hg', .inl hlost⟩
  | edits | others => exact ⟨g', hg', .inl hlost⟩

/-- **Release.** However many guests come, as long as the counter has room for them, and whichever of
them give up wherever they wait: an instance counts those who have opened a document and not closed it;
a guest opens one document at most, and closes it at most once, after it was opened. What is left to be
done for the guests comes to an end. Then each document that was opened was closed once, except for
those of the lost guests, and an instance has no document open just if none of its guests is lost. Only
those are lost who give up while they wait to close their documents. -/
theorem released_of_reachable (h : Reachable s) (hb : s.guests.length ≤ Word.maxU32) :
    (∀ i uri, s.depot.pool.references i uri =
      s.guests.countP fun g => g.marks = [.opened i uri]) ∧
    (∀ g ∈ s.guests, g.marks = [] ∨
      ∃ i uri, g.marks = [.opened i uri] ∨ g.marks = [.opened i uri, .closed i uri]) ∧
    (∃ t, Run (·.isUnaided) s t ∧ t.IsOver ∧ t.guests.length = s.guests.length) ∧
    (s.IsOver →
      (∀ g ∈ s.guests, g.marks = [] ∧ g.isLost = false ∨
        ∃ i uri, g.marks = [.opened i uri] ∧ g.isLost = true ∨
          g.marks = [.opened i uri, .closed i uri] ∧ g.isLost = false) ∧
      ∀ i x, s.depot.pool.instance? i = some x →
        (x.documents = [] ↔ ∀ g ∈ s.guests, g.isLost = true → ∀ uri, g.marks ≠ [.opened i uri])) ∧
    ∀ e t n g', s.act e = some t → t.guests[n]? = some g' → g'.isLost = true →
      ∃ g, s.guests[n]? = some g ∧
        (g.isLost = true ∨ e = .giveUp n ∧ ∃ v o, g.state = .busy (.closing v o)) := by
  have hs := balanced_of_reachable h hb
  refine ⟨hs.references, fun g hg => marks_of_accounted (hs.accounted g hg),
    ends_of_reachable h hb, fun hover => ?_, fun e t n g' => isLost_of_act⟩
  have hmarks := fun g hg => marks_of_isOver (hs.accounted g hg) (hover g hg)
  refine ⟨hmarks, fun i x hx => (hs.documents_eq_nil_iff hx).trans ?_⟩
  -- Whoever has a document open is lost.
  have hlost : ∀ g ∈ s.guests, ∀ uri, g.marks = [.opened i uri] → g.isLost = true := by
    intro g hg uri hopen
    rcases hmarks g hg with ⟨hnil, -⟩ | ⟨_, _, ⟨-, hlost⟩ | ⟨hclosed, -⟩⟩
    · rw [hopen] at hnil
      cases hnil
    · exact hlost
    · rw [hopen] at hclosed
      cases hclosed
  exact ⟨fun hnone g hg _ => hnone g hg,
    fun hnone g hg uri hopen => hnone g hg (hlost g hg uri hopen) uri hopen⟩

/-- A file that can be read is read. -/
theorem act_of_reads {o : Session.Opening} {marks : List Mark} {text : String}
    (hg : s.guests[n]? = some ⟨.busy (.opening o), marks⟩) (ht : o.text = none)
    (hr : DocumentText.read s.files s.depot.pool.directory o.path o.limit = .ok text) :
    s.act (.step n) = some (s.setGuest n s.depot.pool
      ⟨.busy (.opening { o with text := some text }), marks⟩) := by
  simp only [act, hg, Option.bind_eq_bind, Option.bind_some, Round.step, Session.Opening.step, ht, hr,
    Step.within, Round.marks, List.append_nil]

/-- Two guests have come to an instance to have a session with the same file. -/
def meeting : Gathering :=
  let events := [.visit (.ready Depot.python), Depot.go 0, Depot.go 0] ++ Depot.bringing 0 ++ [Depot.go 0]
  ((new Inspection.sampleFiles Depot.sample).follow (events.map .other ++
    [.arrive 0 "/repo/a.py" "python" 10485760, .arrive 0 "/repo/a.py" "python" 10485760])).getD
    (new Inspection.sampleFiles Depot.sample)

/-- A guest who has read the file. -/
def reader : Guest := ⟨.busy (.opening ⟨0, "/repo/a.py", "python", 10485760, some ""⟩), []⟩

/-- Both guests have read the file. -/
def announcing : Gathering := { meeting with guests := [reader, reader] }

/-- One guest gives up, the other one waits in vain. -/
def parting : List Event :=
  [.step 0, .step 0, .step 1, .step 1, .giveUp 0, .other (.elapse 100000 0), .step 1, .step 1, .tidy 0]

def parted : Gathering := (announcing.follow parting).getD announcing

/-- One guest waits in vain and comes to close its document while the other one opens it, and gives up
meanwhile. The other one goes on to the end. -/
def deserting : List Event :=
  [.step 0, .step 0, .other (.elapse 100000 0), .step 0, .step 1, .giveUp 0, .step 1,
    .other (.elapse 100000 0), .step 1, .step 1]

def deserted : Gathering := (announcing.follow deserting).getD announcing

theorem reachable_announcing : Reachable announcing := by
  let events := [.visit (.ready Depot.python), Depot.go 0, Depot.go 0] ++ Depot.bringing 0 ++ [Depot.go 0]
  have hmeeting : (new Inspection.sampleFiles Depot.sample).follow (events.map .other ++
      [.arrive 0 "/repo/a.py" "python" 10485760, .arrive 0 "/repo/a.py" "python" 10485760]) =
      some meeting := by rfl
  have hread : DocumentText.read Inspection.sampleFiles "/" "/repo/a.py" 10485760 = .ok "" := by cbv
  have hquiet : ∀ e ∈ events.map Event.other ++
      [.arrive 0 "/repo/a.py" "python" 10485760, .arrive 0 "/repo/a.py" "python" 10485760],
      e.isQuiet := by decide
  have hfirst := act_of_reads (s := meeting) (n := 0) rfl rfl hread
  have hsecond := act_of_reads (s := meeting.setGuest 0 meeting.depot.pool reader) (n := 1) rfl rfl hread
  have hrun := ((Run.of_follow hquiet hmeeting).step (e := .step 0) rfl hfirst).step
    (e := .step 1) rfl hsecond
  exact ⟨_, _, _, _, _, _, hrun⟩

/-- What the two guests can come to. -/
theorem reachable_of_follow {es : List Event} (hes : ∀ e ∈ es, e.isQuiet)
    (hsome : (announcing.follow es).isSome = true) :
    Reachable ((announcing.follow es).getD announcing) := by
  obtain ⟨t, ht⟩ := Option.isSome_iff_exists.mp hsome
  rw [ht, Option.getD_some]
  exact reachable_announcing.run (Run.of_follow hes ht)

/-- Two guests have opened the same document, and one of them has given up: it is closed. -/
theorem released_of_reachable_parted :
    parted.guests.map (·.marks) = List.replicate 2
      [.opened 0 "file:///repo/a.py", .closed 0 "file:///repo/a.py"] ∧
    ∃ x, parted.depot.pool.instance? 0 = some x ∧ x.documents = [] := by
  have hmarks : parted.guests.map (·.marks) = List.replicate 2
      [.opened 0 "file:///repo/a.py", .closed 0 "file:///repo/a.py"] := by decide +kernel
  have hover : ∀ g ∈ parted.guests, g.isOver = true := by decide +kernel
  have hsome : (parted.depot.pool.instance? 0).isSome = true := by decide +kernel
  obtain ⟨x, hx⟩ := Option.isSome_iff_exists.mp hsome
  have hreachable : Reachable parted := reachable_of_follow (by decide) (by decide +kernel)
  have hfound : ∀ g ∈ parted.guests, g.isLost = true → ∀ uri, g.marks ≠ [.opened 0 uri] := by
    have hnone : ∀ g ∈ parted.guests, g.isLost = false := by decide +kernel
    intro g hg hlost
    rw [hnone g hg] at hlost
    cases hlost
  obtain ⟨-, -, -, hreleased, -⟩ := released_of_reachable hreachable (by decide +kernel)
  exact ⟨hmarks, x, hx, ((hreleased hover).2 0 x hx).mpr hfound⟩

/-- **Desertion.** A guest gives up while the close waits for the documents: nothing is left to be done
for any guest, and the document stays open. -/
theorem open_of_deserted :
    Reachable deserted ∧ deserted.IsOver ∧
    deserted.guests.map (·.marks) = [[.opened 0 "file:///repo/a.py"],
      [.opened 0 "file:///repo/a.py", .closed 0 "file:///repo/a.py"]] ∧
    deserted.depot.pool.references 0 "file:///repo/a.py" = 1 := by
  have hreachable : Reachable deserted := reachable_of_follow (by decide) (by decide +kernel)
  have hover : ∀ g ∈ deserted.guests, g.isOver = true := by decide +kernel
  exact ⟨hreachable, hover, by decide +kernel, by decide +kernel⟩

end DiagnosticBroker.Gathering
