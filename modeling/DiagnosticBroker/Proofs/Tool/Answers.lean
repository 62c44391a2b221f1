import DiagnosticBroker.Proofs.Tool.Ledger

/-!
# One answer to each line

However many tasks may run at the same time, and in whatever order the checks end, a server that has
stopped has put out exactly one answer for each line that needs one, and nothing else. What was asked
of those who check files is over before they are told to stop, and they have been told to stop.

Results:
* `Journaled.of_deed`: nothing is begun after the shutdown.
* `one_answer_each`: what a server that has stopped has put out.
-/

namespace DiagnosticBroker.Tool

variable {σ π : Type} {c : Checker σ π}

namespace Shift

variable {s s' : Shift σ π} {e : Event σ}

/-! ## The journal -/

/-- Those who check files have been told to stop, after all that was asked of them before, and what was
asked is over. -/
def ShutDownLast (lines : List String) (journal : List (Work × Bool)) : Prop :=
  ∃ before k, journal = before ++ List.replicate k (.shutdown, false) ++ [(.shutdown, true)] ∧
    (∀ entry ∈ before, entry.1 ≠ .shutdown) ∧
    (∀ n b, (Work.check n, b) ∈ before → (.check n, true) ∈ before) ∧
    ∀ (n : Nat) line id file, lines[n]? = some line → Demand.ofLine line = .check id file →
      (.check n, true) ∈ before

/-- What the journal tells of the shutdown: nothing before the server has got to it, and afterwards
nothing else. -/
def Told (main : Option (Activity π)) (journal : List (Work × Bool)) : Prop :=
  match main with
  | some .reading => ∀ entry ∈ journal, entry.1 ≠ .shutdown
  | some .draining => ∀ entry ∈ journal, entry.1 ≠ .shutdown
  | some (.stopping _) => ∃ before k, journal = before ++ List.replicate k (.shutdown, false) ∧
      ∀ entry ∈ before, entry.1 ≠ .shutdown
  | _ => ∃ before k,
      journal = before ++ List.replicate k (.shutdown, false) ++ [(.shutdown, true)] ∧
        ∀ entry ∈ before, entry.1 ≠ .shutdown

/-- What was begun is over or under way, and nothing was begun after the shutdown. -/
structure Journaled (s : Shift σ π) : Prop where
  ended : ∀ w b, w ≠ .shutdown → (w, b) ∈ s.journal →
    (w, true) ∈ s.journal ∨ ∃ a ∈ s.jobs, a.work? = some w
  told : Told s.main s.journal

theorem Journaled.of_works {l r : List (Activity π)} {a : Activity π} {a' : Option (Activity π)}
    {serving : Serving σ} (hjo : s.Journaled) (hc : s.Counted) (hj : s.jobs = l ++ a :: r)
    (ha : isJob a = true) :
    Journaled { s with
      serving := serving
      jobs := l ++ a'.toList ++ r
      journal := s.journal ++ entries a a' } := by
  have hmain := hc.main_of_jobs hj
  have hentries : ∀ entry ∈ entries a a', a.work? = some entry.1 := by
    intro entry hentry
    obtain ⟨w, hw, rfl⟩ := List.mem_map.mp hentry
    exact Option.mem_toList.mp hw
  have hgoes : ∀ w, a.work? = some w → (w, true) ∈ entries a a' ∨
      ∃ b ∈ l ++ a'.toList ++ r, b.work? = some w := by
    intro w hw
    by_cases hb : a'.bind Activity.work? = some w
    · obtain ⟨b, hb, hwork⟩ := Option.bind_eq_some_iff.mp hb
      exact .inr ⟨b, by simp [hb], hwork⟩
    · exact .inl (by simp [entries, hw, hb])
  refine ⟨fun w b hw hmem => ?_, ?_⟩
  · rcases List.mem_append.mp hmem with hmem | hmem
    · rcases hjo.ended w b hw hmem with hover | ⟨b, hb, hwork⟩
      · exact .inl (List.mem_append_left _ hover)
      · rw [hj] at hb
        rcases List.mem_append.mp hb with hb | hb
        · exact .inr ⟨b, by simp [hb], hwork⟩
        · rcases List.mem_cons.mp hb with rfl | hb
          · exact (hgoes w hwork).imp_left (List.mem_append_right _)
          · exact .inr ⟨b, by simp [hb], hwork⟩
    · exact (hgoes w (hentries _ hmem)).imp_left (List.mem_append_right _)
  · have hnew : ∀ entry ∈ entries a a', entry.1 ≠ .shutdown := by
      intro entry hentry hs
      have hwork := hentries entry hentry
      rw [hs] at hwork
      cases a with
      | task n t => cases t <;> cases hwork
      | reaping => cases hwork
      | _ => cases ha
    have hold := hjo.told
    show Told s.main (s.journal ++ entries a a')
    rcases hmain with hm | hm
    · rw [hm] at hold ⊢
      exact List.forall_mem_append.mpr ⟨hold, hnew⟩
    · rw [hm] at hold ⊢
      exact List.forall_mem_append.mpr ⟨hold, hnew⟩

/-- The work of others does not depend on how far the shutdown is. -/
theorem Journaled.ended_of_shutdown (hjo : s.Journaled) (done : Bool) (w : Work) (b : Bool)
    (hw : w ≠ .shutdown) (hmem : (w, b) ∈ s.journal ++ [(.shutdown, done)]) :
    (w, true) ∈ s.journal ++ [(.shutdown, done)] ∨ ∃ a ∈ s.jobs, a.work? = some w := by
  rcases List.mem_append.mp hmem with hmem | hmem
  · exact (hjo.ended w b hw hmem).imp_left (List.mem_append_left _)
  · cases List.mem_singleton.mp hmem
    exact absurd rfl hw

/-- A server may have new jobs. -/
theorem Journaled.ended_of_jobs (hjo : s.Journaled) (more : List (Activity π)) (w : Work) (b : Bool)
    (hw : w ≠ .shutdown) (hmem : (w, b) ∈ s.journal) :
    (w, true) ∈ s.journal ∨ ∃ a ∈ s.jobs ++ more, a.work? = some w := by
  rcases hjo.ended w b hw hmem with hover | ⟨a, ha, hwork⟩
  · exact .inl hover
  · exact .inr ⟨a, List.mem_append_left _ ha, hwork⟩

theorem Journaled.of_deed (hjo : s.Journaled) (hc : s.Counted) (hd : s.Deed c e s') :
    s'.Journaled := by
  have htold := hjo.told
  cases hd with
  | elapses | stirs | arrives | closes | writes | leaves => exact ⟨hjo.ended, htold⟩
  | takes hm =>
    rw [hm] at htold
    exact ⟨hjo.ended_of_jobs _, htold⟩
  | ticks hm =>
    rw [hm] at htold
    exact ⟨hjo.ended_of_jobs _, htold⟩
  | ends hm =>
    rw [hm] at htold
    exact ⟨hjo.ended, htold⟩
  | drains hm =>
    rw [hm] at htold
    exact ⟨hjo.ended, s.journal, 0, (List.append_nil _).symm, htold⟩
  | stops hm =>
    rw [hm] at htold
    obtain ⟨before, k, hjournal, hbefore⟩ := htold
    refine ⟨hjo.ended_of_shutdown false, before, k + 1, ?_, hbefore⟩
    show s.journal ++ _ = _
    rw [hjournal, List.append_assoc, List.replicate_succ']
  | stopped hm =>
    rw [hm] at htold
    obtain ⟨before, k, hjournal, hbefore⟩ := htold
    exact ⟨hjo.ended_of_shutdown true, before, k, congrArg (· ++ _) hjournal, hbefore⟩
  | ceases hm =>
    rw [hm] at htold
    exact ⟨hjo.ended, htold⟩
  | works hj ha => exact hjo.of_works hc hj ha

/-! ## The end -/

/-- All that is kept at a server where no check fails. -/
structure Booked (s : Shift σ π) : Prop where
  counted : s.Counted
  reads : s.Reads
  ledger : ∃ done, s.Ledger Settles done
  journaled : s.Journaled

theorem booked_of_reachable (h : Reachable c (fun s e => ¬ s.Fails c e) s) : s.Booked := by
  refine h.keeps (fun policy rest => ?_) fun hb hf hd => ?_
  · refine ⟨.new policy rest, fun more _ => rfl, ⟨[], ?_⟩, ?_⟩
    · exact ⟨nofun, .refl _, nofun, rfl⟩
    · exact ⟨nofun, nofun⟩
  · obtain ⟨done, hl⟩ := hb.ledger
    exact ⟨hb.counted.of_deed hd, hb.reads.of_deed hd,
      hl.of_deed settles_of_serves (fun hfails => absurd hfails hf) hd, hb.journaled.of_deed hb.counted hd⟩

/-- **One answer to each line.** What a server that has stopped has put out are, in some order, the
answers to the lines that need one: one for each of them and nothing else. Those who check files have
been told to stop after the last check. -/
theorem one_answer_each {text : List Char} (h : Reachable c (fun s e => ¬ s.Fails c e) s)
    (ht : s.arrived = Utf8.encode text) (hs : s.server.stopped = true) :
    (∃ rs, List.Forall₂ Answers
        ((textLines text).filter fun line => !isBlankLine line && needsAnswer line) rs ∧
      (s.server.output.map (·.2)).Perm rs) ∧
    ShutDownLast s.server.lines s.journal := by
  have hb := booked_of_reachable h
  obtain ⟨done, hl⟩ := hb.ledger
  obtain ⟨hmain, hended⟩ := hb.counted.stopped hs
  have hjobs : s.jobs = [] := by
    rcases hb.counted.jobs with hm | hm | hj
    · rw [hmain] at hm
      cases hm
    · rw [hmain] at hm
      cases hm
    · exact hj
  have hlines : (textLines text).filter (fun line => !isBlankLine line) = s.server.lines := by
    have hall := hb.reads [] fun _ => rfl
    rw [List.append_nil, ht, linesOf_encode, unread, hmain, List.append_nil] at hall
    exact hall
  have hbox := (hb.counted.writer hended).1
  obtain ⟨rs, hanswers, hsent⟩ := hl.answers hjobs
  rw [hbox, List.append_nil] at hsent
  refine ⟨⟨rs, ?_, hsent⟩, ?_⟩
  · rw [← hlines, List.filter_filter] at hanswers
    simpa only [Bool.and_comm] using hanswers
  · have htold := hb.journaled.told
    rw [hmain] at htold
    obtain ⟨before, k, hjournal, hbefore⟩ := htold
    have hcheck : ∀ n b, (Work.check n, b) ∈ s.journal → (Work.check n, b) ∈ before := by
      intro n b hmem
      rw [hjournal] at hmem
      simpa [List.mem_append, List.mem_replicate] using hmem
    refine ⟨before, k, hjournal, hbefore, fun n b hmem => hcheck n true ?_, fun n line id file hn hd =>
      hcheck n true ?_⟩
    · have hall : (Work.check n, b) ∈ s.journal := by
        rw [hjournal]
        exact List.mem_append_left _ (List.mem_append_left _ hmem)
      rcases hb.journaled.ended (.check n) b (fun h => by cases h) hall with hover | ⟨a, ha, -⟩
      · exact hover
      · rw [hjobs] at ha
        cases ha
    · exact hl.checked hjobs hn hd

/-- Somebody who finds nothing in any file. -/
def contented : Checker Unit Unit where
  check _ := ()
  reap _ := ()
  shutdown := ()
  step _ _ _ := .done () (some (.success "/a.py" []))
  cancel _ _ _ := ()

theorem contented_not_fails (s : Shift Unit Unit) (e : Event Unit) : ¬ s.Fails contented e := by
  rintro ⟨who, n, deadline, id, x, -, -, ⟨rest, hstep⟩ | ⟨hblocked, -⟩⟩
  · cases hstep
  · cases hblocked

/-- A request, a blank line, a notification, something that is not JSON and the check of a file. -/
def asked : List Char :=
  ["\x7b\"jsonrpc\":\"2.0\",\"id\":1,\"method\":\"ping\"\x7d\n\n",
    "\x7b\"jsonrpc\":\"2.0\",\"id\":null,\"method\":\"ping\"\x7d\noops\n",
    "\x7b\"jsonrpc\":\"2.0\",\"id\":\"x\",\"method\":\"tools/call\",\"params\":",
    "\x7b\"name\":\"validate\",\"arguments\":\x7b\"file_path\":\"/a.py\"\x7d\x7d\x7d"].flatMap
    String.toList

/-- Its lines are read; then the tasks are worked on, the last one first and one at a time. -/
def steps : List (Event Unit) :=
  [.arrive (Utf8.encode asked), .close] ++ List.replicate 6 (.go .main) ++
    List.replicate 4 (.go (.job 3)) ++ List.replicate 3 (.go (.job 2)) ++
    List.replicate 3 (.go (.job 1)) ++ List.replicate 3 (.go (.job 0)) ++
    List.replicate 2 (.go .main) ++ List.replicate 4 (.go .writer) ++ [.go .main]

/-- The server that has read all lines has stopped, with an answer to each of the three that need one. -/
theorem one_answer_each_asked :
    ∃ s : Shift Unit Unit, s.arrived = Utf8.encode asked ∧ s.server.stopped = true ∧
      s.server.output.map (·.2.id) = [some (.text "x"), none, some (.number 1)] ∧
      (∃ rs, List.Forall₂ Answers
          ((textLines asked).filter fun line => !isBlankLine line && needsAnswer line) rs ∧
        (s.server.output.map (·.2)).Perm rs) ∧
      ShutDownLast s.server.lines s.journal := by
  have hrun : ((new ⟨1, none, .zero, .ofMillis 100⟩ ()).run contented steps).any fun s =>
      s.arrived = Utf8.encode asked ∧ s.server.stopped = true ∧
        s.server.output.map (·.2.id) = [some (.text "x"), none, some (.number 1)] := by
    decide +kernel
  obtain ⟨s, hs, hfacts⟩ := (Option.any_eq_true _ _).mp hrun
  obtain ⟨harrived, hstopped, hids⟩ := of_decide_eq_true hfacts
  have hreach := (Reachable.new _ ()).of_run contented_not_fails hs
  exact ⟨s, harrived, hstopped, hids, one_answer_each hreach harrived hstopped⟩

end Shift

end DiagnosticBroker.Tool
