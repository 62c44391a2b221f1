import Mathlib.Data.List.Nodup
import DiagnosticBroker.Proofs.Tool.Calls
import DiagnosticBroker.Proofs.Tool.Ledger

/-!
# What those who check files are asked for

A check is begun when it is under way after an event and was not before. In every run of a server the
checks that are begun are those that lines call for, of the files that they name, and none is begun
twice for a line. A line that calls for a check has it begun as soon as its task is about to find out
what the line asks for.

Results:
* `bears_of_goes`: what a step of a job does to its line.
* `Commissioned.of_deed`: the checks that were begun are those that lines called for.
* `only_calls_checked`: what is done with each line, in every run.
-/

namespace DiagnosticBroker.Tool

variable {σ π : Type} {c : Checker σ π} {now : Time}

/-! ## Jobs -/

namespace Activity

/-- The check that a job waits for, with the number of its line. -/
def check? : Activity π → Option (Nat × π)
  | .task n (.checking _ _ x) => some (n, x)
  | _ => none

/-- The number of the line that a job has not looked at yet. -/
def unseen? : Activity π → Option Nat
  | .task _ (.checking ..) => none
  | .task n _ => some n
  | _ => none

theorem number?_of_check? {a : Activity π} {p : Nat × π} (h : a.check? = some p) :
    a.number? = some p.1 := by
  cases a with
  | task n t =>
    cases t <;> cases h
    rfl
  | _ => cases h

theorem number?_of_unseen? {a : Activity π} {n : Nat} (h : a.unseen? = some n) :
    a.number? = some n := by
  cases a with
  | task m t => cases t <;> cases h <;> rfl
  | _ => cases h

theorem check?_of_unseen? {a : Activity π} {n : Nat} (h : a.unseen? = some n) :
    a.check? = none := by
  cases a with
  | task m t => cases t <;> first | rfl | cases h
  | _ => cases h

/-- What a step of a job does to its line: nothing new, or it finds that the line is no call, or it
begins the check that the line calls for. -/
inductive Bears (c : Checker σ π) (lines : List String) :
    Activity π → Option (Activity π) → Prop where
  | same {a : Activity π} {a' : Option (Activity π)} (hu : a'.bind unseen? = a.unseen?)
      (hc : ∀ p ∈ a'.bind check?, ∃ q, a.check? = some q ∧ q.1 = p.1) : Bears c lines a a'
  | passes {a : Activity π} {n : Nat} {line : String} (hu : a.unseen? = some n)
      (hl : lines[n]? = some line) (hn : ∀ i file, ¬Calls line i file) : Bears c lines a none
  | begins {a b : Activity π} {n : Nat} {line file : String} {i : Wire.Id}
      (hu : a.unseen? = some n) (hl : lines[n]? = some line) (hcalls : Calls line i file)
      (hb : b.unseen? = none) (hc : b.check? = some (n, c.check file)) : Bears c lines a (some b)

theorem bears_of_goes {a : Activity π} {a' : Option (Activity π)} {s s' : Serving σ}
    (ha : Shift.isJob a = true) (hg : a.Goes c now s s' a') : a.Bears c s.server.lines a' := by
  cases hg with
  | writes | leaves | takes | ends | ticks | drains | stops | stopped | closes => cases ha
  | queues | begins | reaps => exact .same rfl nofun
  | reports | dies | expires | reaped => exact .same rfl nofun
  | continues =>
    refine .same rfl ?_
    rintro p ⟨⟩
    exact ⟨_, rfl, rfl⟩
  | ignores hl hd =>
    refine .passes rfl hl fun i file hcalls => ?_
    rw [check_iff.mpr ⟨i, rfl, hcalls⟩] at hd
    cases hd
  | answers hl hd =>
    refine .passes rfl hl fun i file hcalls => ?_
    rw [check_iff.mpr ⟨i, rfl, hcalls⟩] at hd
    cases hd
  | checks hl hd =>
    obtain ⟨i, -, hcalls⟩ := check_iff.mp hd
    exact .begins rfl hl hcalls rfl rfl

end Activity

namespace Shift

variable {s s' : Shift σ π} {e : Event σ}

/-! ## Checks that are begun -/

/-- The checks that are under way. -/
def checks (s : Shift σ π) : List (Nat × π) := s.jobs.filterMap Activity.check?

/-- The numbers of the lines that their tasks have not looked at yet. -/
def unseen (s : Shift σ π) : List Nat := s.jobs.filterMap Activity.unseen?

/-- The checks that were not under way before and are now. -/
def newChecks (s s' : Shift σ π) : List (Nat × π) :=
  s'.checks.filter fun p => p.1 ∉ s.checks.map (·.1)

/-- The checks that are begun in a run. -/
def begun (c : Checker σ π) (s : Shift σ π) : List (Event σ) → List (Nat × π)
  | [] => []
  | e :: es =>
    match s.act c e with
    | none => []
    | some s' => s.newChecks s' ++ s'.begun c es

/-- The checks that were begun are those that lines call for, at most one for each, and all but those
of lines that were not looked at yet. -/
structure Commissioned (c : Checker σ π) (s : Shift σ π) (begun : List (Nat × π)) : Prop where
  called : ∀ n x, (n, x) ∈ begun → ∃ line i file, s.server.lines[n]? = some line ∧
    Calls line i file ∧ x = c.check file
  once : (begun.map (·.1)).Nodup
  seen : ∀ n ∈ s.unseen, n ∉ begun.map (·.1)
  all : ∀ (n : Nat) line i file, s.server.lines[n]? = some line → Calls line i file →
    n ∈ s.unseen ∨ n ∈ begun.map (·.1)

variable {begun : List (Nat × π)}

theorem newChecks_eq_nil (h : ∀ p ∈ s'.checks, p.1 ∈ s.checks.map (·.1)) :
    s.newChecks s' = [] := by
  rw [newChecks, List.filter_eq_nil_iff]
  intro p hp
  simpa using h p hp

theorem newChecks_of_checks (h : s'.checks = s.checks) : s.newChecks s' = [] :=
  newChecks_eq_nil fun _ hp => List.mem_map_of_mem (h ▸ hp)

theorem newChecks_of_one {l r : List (Nat × π)} {p : Nat × π} (h : s.checks = l ++ r)
    (h' : s'.checks = l ++ [p] ++ r) (hp : p.1 ∉ s.checks.map (·.1)) : s.newChecks s' = [p] := by
  have hold : ∀ q ∈ l ++ r, ¬decide (q.1 ∉ s.checks.map (·.1)) = true := fun q hq => by
    simpa using List.mem_map_of_mem (f := Prod.fst) (h ▸ hq)
  rw [List.forall_mem_append] at hold
  rw [newChecks, h', List.filter_append, List.filter_append, List.filter_eq_nil_iff.mpr hold.1,
    List.filter_eq_nil_iff.mpr hold.2, List.filter_cons_of_pos (by simpa using hp)]
  rfl

/-! ## What a job adds -/

section

variable {l r : List (Activity π)} {a : Activity π} {a' : Option (Activity π)}

theorem checks_of_jobs (h : s.jobs = l ++ a :: r) :
    s.checks =
      l.filterMap Activity.check? ++ a.check?.toList ++ r.filterMap Activity.check? := by
  have hsplit := filterMap_put Activity.check? l r (some a)
  rw [Option.toList_some, List.append_assoc, List.singleton_append, ← h] at hsplit
  exact hsplit

theorem unseen_of_jobs (h : s.jobs = l ++ a :: r) :
    s.unseen =
      l.filterMap Activity.unseen? ++ a.unseen?.toList ++ r.filterMap Activity.unseen? := by
  have hsplit := filterMap_put Activity.unseen? l r (some a)
  rw [Option.toList_some, List.append_assoc, List.singleton_append, ← h] at hsplit
  exact hsplit

/-- The number of a job is that of no other job. -/
theorem number_ne {b : Activity π} {n : Nat} (hn : s.pending.Nodup) (hj : s.jobs = l ++ a :: r)
    (ha : a.number? = some n) (hb : b ∈ l ++ r) : b.number? ≠ some n := by
  intro hsame
  rw [pending_of_jobs hj, ha, Option.toList_some, List.append_assoc, List.singleton_append] at hn
  have hother : n ∈ l.filterMap Activity.number? ++ r.filterMap Activity.number? := by
    rw [← List.filterMap_append]
    exact List.mem_filterMap.mpr ⟨b, hb, hsame⟩
  exact (List.nodup_cons.mp (List.perm_middle.nodup_iff.mp hn)).1 hother

end

/-! ## What is added to the checks that were begun -/

/-- No check is begun, and no line is looked at that calls for one. -/
theorem Commissioned.of_none (hs : Commissioned c s begun) (hnone : s.newChecks s' = [])
    (hl : s'.server.lines = s.server.lines) (hless : ∀ n ∈ s'.unseen, n ∈ s.unseen)
    (hseen : ∀ n ∈ s.unseen, n ∈ s'.unseen ∨
      ∃ line, s.server.lines[n]? = some line ∧ ∀ i file, ¬Calls line i file) :
    Commissioned c s' (begun ++ s.newChecks s') := by
  rw [hnone, List.append_nil]
  refine ⟨hl ▸ hs.called, hs.once, fun n hn => hs.seen n (hless n hn), ?_⟩
  intro n line i file hline hcall
  rw [hl] at hline
  rcases hs.all n line i file hline hcall with hold | hold
  · rcases hseen n hold with hn | ⟨line', hline', hnot⟩
    · exact .inl hn
    · obtain rfl := Option.some.inj (hline.symm.trans hline')
      exact absurd hcall (hnot i file)
  · exact .inr hold

/-- The check is begun that a line calls for, and now the line is looked at. -/
theorem Commissioned.of_one {n : Nat} {line file : String} {i : Wire.Id}
    (hs : Commissioned c s begun) (hnew : s.newChecks s' = [(n, c.check file)])
    (hl : s'.server.lines = s.server.lines) (hline : s.server.lines[n]? = some line)
    (hcall : Calls line i file) (hu : ∀ m, m ∈ s.unseen ↔ m = n ∨ m ∈ s'.unseen)
    (hn : n ∉ s'.unseen) : Commissioned c s' (begun ++ s.newChecks s') := by
  have hnever : n ∉ begun.map (·.1) := hs.seen n ((hu n).mpr (.inl rfl))
  have hnumbers : (begun ++ [(n, c.check file)]).map (·.1) = begun.map (·.1) ++ [n] :=
    List.map_append
  rw [hnew]
  refine ⟨fun m x hm => ?_, ?_, fun m hm => ?_, fun m line' i' file' hm hcall' => ?_⟩
  · rw [hl]
    rcases List.mem_append.mp hm with hm | hm
    · exact hs.called m x hm
    · obtain ⟨rfl, rfl⟩ := Prod.mk.inj (List.mem_singleton.mp hm)
      exact ⟨line, i, file, hline, hcall, rfl⟩
  · rw [hnumbers, ← List.concat_eq_append]
    exact hs.once.concat hnever
  · rw [hnumbers, List.mem_append, List.mem_singleton, not_or]
    exact ⟨hs.seen m ((hu m).mpr (.inr hm)), fun heq => hn (heq ▸ hm)⟩
  · rw [hnumbers, List.mem_append, List.mem_singleton]
    rcases hs.all m line' i' file' (hl ▸ hm) hcall' with hold | hold
    · exact ((hu m).mp hold).elim (fun heq => .inr (.inr heq)) .inl
    · exact .inr (.inl hold)

theorem Commissioned.of_quiet (hs : Commissioned c s begun) (hc : s'.checks = s.checks)
    (hu : s'.unseen = s.unseen) (hl : s'.server.lines = s.server.lines) :
    Commissioned c s' (begun ++ s.newChecks s') :=
  hs.of_none (newChecks_of_checks hc) hl (fun _ => hu ▸ id) fun _ hn => .inl (hu ▸ hn)

/-- A job begins at most the check that its line calls for. -/
theorem Commissioned.of_bears {l r : List (Activity π)} {a : Activity π} {a' : Option (Activity π)}
    (hs : Commissioned c s begun) (hn : s.pending.Nodup) (hj : s.jobs = l ++ a :: r)
    (hj' : s'.jobs = l ++ a'.toList ++ r) (hl : s'.server.lines = s.server.lines)
    (hb : a.Bears c s.server.lines a') : Commissioned c s' (begun ++ s.newChecks s') := by
  have hchecks := checks_of_jobs hj
  have hunseen := unseen_of_jobs hj
  have hchecks' : s'.checks = _ := (congrArg _ hj').trans (filterMap_put Activity.check? l r a')
  have hunseen' : s'.unseen = _ := (congrArg _ hj').trans (filterMap_put Activity.unseen? l r a')
  cases hb with
  | same hu hc =>
    have hsame : s'.unseen = s.unseen := by rw [hunseen', hunseen, hu]
    refine hs.of_none (newChecks_eq_nil fun p hp => ?_) hl (fun _ => hsame ▸ id)
      fun _ hn => .inl (hsame ▸ hn)
    rw [hchecks'] at hp
    rw [hchecks]
    simp only [List.mem_append, Option.mem_toList] at hp
    simp only [List.map_append, List.mem_append, List.mem_map]
    rcases hp with (hp | hp) | hp
    · exact .inl (.inl ⟨p, hp, rfl⟩)
    · obtain ⟨q, hq, hqp⟩ := hc p hp
      exact .inl (.inr ⟨q, Option.mem_toList.mpr hq, hqp⟩)
    · exact .inr ⟨p, hp, rfl⟩
  | @passes n line hu hline hcalls =>
    rw [hu, Option.toList_some] at hunseen
    rw [Option.bind_none, Option.toList_none, List.append_nil] at hunseen' hchecks'
    refine hs.of_none (newChecks_eq_nil fun p hp => List.mem_map_of_mem ?_) hl (fun m hm => ?_)
      fun m hm => ?_
    · rw [hchecks', List.mem_append] at hp
      rw [hchecks, List.mem_append, List.mem_append]
      exact hp.imp_left .inl
    · rw [hunseen', List.mem_append] at hm
      rw [hunseen, List.mem_append, List.mem_append]
      exact hm.imp_left .inl
    · rw [hunseen, List.mem_append, List.mem_append, List.mem_singleton] at hm
      rw [hunseen', List.mem_append]
      rcases hm with (hm | rfl) | hm
      · exact .inl (.inl hm)
      · exact .inr ⟨line, hline, hcalls⟩
      · exact .inl (.inr hm)
  | @begins b n line file i hu hline hcall hbu hbc =>
    have hnumber := Activity.number?_of_unseen? hu
    rw [hu, Option.toList_some] at hunseen
    rw [Activity.check?_of_unseen? hu, Option.toList_none, List.append_nil] at hchecks
    rw [Option.bind_some, hbu, Option.toList_none, List.append_nil] at hunseen'
    rw [Option.bind_some, hbc, Option.toList_some] at hchecks'
    have hother : ∀ b ∈ l ++ r, b.number? ≠ some n := fun b => number_ne hn hj hnumber
    have hfresh : n ∉ s.checks.map (·.1) := by
      intro hmem
      obtain ⟨p, hp, rfl⟩ := List.mem_map.mp hmem
      rw [hchecks, ← List.filterMap_append] at hp
      obtain ⟨b, hb, hcheck⟩ := List.mem_filterMap.mp hp
      exact hother b hb (Activity.number?_of_check? hcheck)
    refine hs.of_one (newChecks_of_one hchecks hchecks' hfresh) hl hline hcall (fun m => ?_)
      fun hmem => ?_
    · rw [hunseen', hunseen]
      simp only [List.mem_append, List.mem_singleton]
      tauto
    · rw [hunseen', ← List.filterMap_append] at hmem
      obtain ⟨b, hb, hbn⟩ := List.mem_filterMap.mp hmem
      exact hother b hb (Activity.number?_of_unseen? hbn)

/-! ## Events -/

theorem nodup_pending {R : String → Option Response → Prop} {done : List (Nat × Option Response)}
    (hl : s.Ledger R done) : s.pending.Nodup :=
  (List.nodup_append.mp (hl.numbers.nodup_iff.mpr List.nodup_range)).1

/-- A line that is taken has a task that has not looked at it. -/
theorem Commissioned.of_line {line : String} (hs : Commissioned c s begun)
    (hj : s'.jobs = s.jobs ++ [.task s.server.lines.length .arrived])
    (hl : s'.server.lines = s.server.lines ++ [line]) :
    Commissioned c s' (begun ++ s.newChecks s') := by
  have hchecks : s'.checks = s.checks := by
    rw [checks, hj, List.filterMap_append]
    exact List.append_nil _
  have hunseen : s'.unseen = s.unseen ++ [s.server.lines.length] := by
    rw [unseen, hj, List.filterMap_append]
    rfl
  rw [newChecks_of_checks hchecks, List.append_nil]
  refine ⟨fun n x hx => ?_, hs.once, fun n hn hmem => ?_, fun n line' i file hn hcall => ?_⟩
  · obtain ⟨line', i, file, hline, hcall⟩ := hs.called n x hx
    obtain ⟨hlt, -⟩ := List.getElem?_eq_some_iff.mp hline
    exact ⟨line', i, file, by rw [hl, List.getElem?_append_left hlt, hline], hcall⟩
  · rw [hunseen, List.mem_append, List.mem_singleton] at hn
    rcases hn with hn | rfl
    · exact hs.seen n hn hmem
    · obtain ⟨p, hp, hlast⟩ := List.mem_map.mp hmem
      obtain ⟨line', i, file, hline, -⟩ := hs.called p.1 p.2 hp
      rw [hlast, List.getElem?_eq_none (Nat.le_refl _)] at hline
      cases hline
  · rw [hunseen, List.mem_append, List.mem_singleton]
    rw [hl] at hn
    by_cases hlt : n < s.server.lines.length
    · rw [List.getElem?_append_left hlt] at hn
      exact (hs.all n line' i file hn hcall).imp_left .inl
    · obtain ⟨hlen, -⟩ := List.getElem?_eq_some_iff.mp hn
      rw [List.length_append, List.length_singleton] at hlen
      exact .inl (.inr (by omega))

/-- **Events.** The checks that were begun are those that lines call for after every event. -/
theorem Commissioned.of_deed (hs : Commissioned c s begun) (hn : s.pending.Nodup)
    (hd : s.Deed c e s') : Commissioned c s' (begun ++ s.newChecks s') := by
  cases hd with
  | elapses | stirs | arrives | closes | writes | leaves | ends | drains | stops | stopped | ceases =>
    exact hs.of_quiet rfl rfl rfl
  | @takes line rest hm h =>
    unfold Server.takeLine
    split_ifs
    · rw [List.append_nil]
      exact hs.of_quiet rfl rfl rfl
    · exact hs.of_line rfl rfl
  | ticks hm h =>
    exact hs.of_quiet (filterMap_ticks (fun _ => rfl) _ _) (filterMap_ticks (fun _ => rfl) _ _)
      (by rw [Server.tick_eq]; rfl)
  | works hj ha hg =>
    refine hs.of_bears hn hj rfl ?_ (Activity.bears_of_goes ha hg)
    cases Activity.toils_of_goes ha hg <;> rfl

/-! ## Runs -/

theorem commissioned_of_run {P : Shift σ π → Event σ → Prop} (hP : ∀ s e, P s e)
    (h : Reachable c P s) {es : List (Event σ)} (hs : Commissioned c s begun)
    (hr : s.run c es = some s') : Commissioned c s' (begun ++ s.begun c es) := by
  induction es generalizing s begun with
  | nil =>
    cases hr
    rwa [Shift.begun, List.append_nil]
  | cons e es ih =>
    obtain ⟨t, ha, hr⟩ := Option.bind_eq_some_iff.mp hr
    obtain ⟨done, hl⟩ := delivered_of_reachable h
    have hdeed := deed_of_act (placed_of_reachable h) ha
    have hlater := ih (h.step (hP s e) ha) (hs.of_deed (nodup_pending hl) hdeed) hr
    simpa only [Shift.begun, ha, List.append_assoc] using hlater

/-- **Only calls have files checked.** What is done with a line is what it demands, and a file is
checked for it if and only if the line is a request under an id that calls the tool with that file. In
every run a check is begun at most once for a line, for a line that calls for it and of the file that
it names, and one is begun for every such line that its task has looked at; and what is sent for a line
is what it asks for, unless its check dies or is cut off. -/
theorem only_calls_checked (c : Checker σ π) :
    (∀ line, Demanded line (Demand.ofLine line)) ∧
    (∀ line id file,
      Demand.ofLine line = .check id file ↔ ∃ i, id = some i ∧ Calls line i file) ∧
    ∀ policy rest es s, (new policy rest : Shift σ π).run c es = some s →
      Commissioned c s ((new policy rest).begun c es) ∧
        ∃ done, s.Ledger (Delivers s.server.policy.requestTimeout) done := by
  refine ⟨demanded_ofLine, fun _ _ _ => check_iff, fun policy rest es s hr => ?_⟩
  have hnew := Reachable.new (c := c) (P := fun _ _ => True) policy rest
  have hnone : Commissioned c (new policy rest) ([] : List (Nat × π)) :=
    ⟨nofun, .nil, nofun, nofun⟩
  exact ⟨commissioned_of_run (fun _ _ => trivial) hnew hnone hr,
    delivered_of_reachable (hnew.of_run (fun _ _ => trivial) hr)⟩

/-- Somebody who notes which file is to be checked, and does so for ever. -/
def absorbed : Checker Unit String where
  check file := file
  reap _ := ""
  shutdown := ""
  step _ _ x := .later () x
  cancel _ _ _ := ()

/-- Calls that give their parts as arrays, that name another tool, and that have no id. -/
def callsAsked : List Char :=
  ["[\"2.0\",7,\"tools/call\",[\"validate\",[\"/a.py\"]]]\n",
    "\x7b\"jsonrpc\":\"2.0\",\"id\":8,\"method\":\"tools/call\",\"params\":\x7b\"name\":\"other\"\x7d\x7d\n",
    "\x7b\"jsonrpc\":\"2.0\",\"method\":\"tools/call\",\"params\":\x7b\"name\":\"validate\",",
    "\"arguments\":\x7b\"file_path\":\"/b.py\"\x7d\x7d\x7d\n"].flatMap String.toList

/-- The lines are read, and their tasks look at them, the last one first. -/
def callSteps : List (Event Unit) :=
  [.arrive (Utf8.encode callsAsked)] ++ List.replicate 3 (.go .main) ++
    List.replicate 3 (.go (.job 2)) ++ List.replicate 3 (.go (.job 1)) ++
    List.replicate 4 (.go (.job 0))

/-- The first call is the only one for which a file is checked. -/
theorem only_calls_checked_once :
    ∃ s : Shift Unit String, (new ⟨3, none, .zero, .ofMillis 100⟩ ()).run absorbed callSteps = some s ∧
      (new ⟨3, none, .zero, .ofMillis 100⟩ ()).begun absorbed callSteps = [(0, "/a.py")] ∧
      Commissioned absorbed s [(0, "/a.py")] := by
  have hrun : ((new ⟨3, none, .zero, .ofMillis 100⟩ ()).run absorbed callSteps).isSome = true := by
    decide +kernel
  obtain ⟨s, hs⟩ := Option.isSome_iff_exists.mp hrun
  have hbegun : (new ⟨3, none, .zero, .ofMillis 100⟩ ()).begun absorbed callSteps =
      [(0, "/a.py")] := by
    decide +kernel
  exact ⟨s, hs, hbegun, hbegun ▸ ((only_calls_checked absorbed).2.2 _ _ _ _ hs).1⟩

end Shift

end DiagnosticBroker.Tool
