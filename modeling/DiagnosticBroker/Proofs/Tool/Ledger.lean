import DiagnosticBroker.Proofs.Tool.Counts
import DiagnosticBroker.Proofs.Tool.Requests
import Mathlib.Data.List.Perm.Basic

/-!
# The ledger of a server

The numbers of the lines that were taken are shared out between the tasks that are under way and the
lines that are done with. For a line that is done with, what was sent is what the line needs, unless
its check has failed, and the check that it asks for, if any, is over. What was put out and what is
still to be put out is what was sent, in order.

Results:
* `serves_of_goes`: a task gives its line what it asks for, unless its check fails.
* `Ledger.of_deed`: the ledger is kept.
* `Ledger.sorted`: when all lines are done with, something is known of each of them.
* `Ledger.answers`: the answers are one for each line that needs one.
-/

namespace DiagnosticBroker.Tool

variable {σ π : Type} {c : Checker σ π} {now : Time}

/-- What is sent for a line whose check fails: nothing if the check dies, and if it is cut off, what is
made of its line. -/
inductive Fallout (limit : Duration) (line : String) : Option Response → Prop where
  | died {id : Option Wire.Id} {file : String} (h : Demand.ofLine line = .check id file) :
      Fallout limit line none
  | cutOff {id : Option Wire.Id} {file : String} (h : Demand.ofLine line = .check id file) :
      Fallout limit line (overdue? line limit)

/-! ## Tasks -/

namespace Activity

variable {s : Serving σ} {server : Server} {rest : σ} {a : Activity π}

/-- A check is made for a line that asks for it, and under the id that the line gives. -/
def Rightful (lines : List String) : Activity π → Prop
  | .task n (.checking _ id _) =>
    ∃ line file, lines[n]? = some line ∧ Demand.ofLine line = .check id file
  | _ => True

theorem Rightful.append {lines : List String} (h : a.Rightful lines) (more : List String) :
    a.Rightful (lines ++ more) := by
  unfold Rightful at h ⊢
  split
  · obtain ⟨line, file, hl, hd⟩ := h
    obtain ⟨hlt, -⟩ := List.getElem?_eq_some_iff.mp hl
    exact ⟨line, file, (List.getElem?_append_left hlt).trans hl, hd⟩
  · trivial

theorem rightful_of_goes {b : Activity π} (h : a.Rightful s.server.lines)
    (hg : a.Goes c now s ⟨server, rest⟩ (some b)) : b.Rightful s.server.lines := by
  cases hg with
  | checks hl hd => exact ⟨_, _, hl, hd⟩
  | continues => exact h
  | _ => trivial

/-- A task gives its line what it asks for, unless its check fails, and if the line asks for a check,
the check is over. -/
theorem serves_of_goes {n : Nat} {t : Task π} {r : Option Response}
    {R : String → Option Response → Prop} (hR : ∀ {line r}, Serves line r → R line r)
    (h : (Activity.task n t).Rightful s.server.lines)
    (hf : ∀ deadline id x, t = .checking deadline id x →
      ((∃ st, c.step now s.rest x = .done st none) ∨
        (c.step now s.rest x).isBlocked = true ∧ deadline ≤ now) →
      ∀ {line r}, Fallout s.server.policy.requestTimeout line r → R line r)
    (hg : (Activity.task n t).Goes c now s ⟨s.server.finish r, rest⟩ none) :
    ∃ line r', s.server.lines[n]? = some line ∧ R line r' ∧
      s.server.finish r = s.server.finish r' ∧
      ∀ id file, Demand.ofLine line = .check id file →
        (.check n, true) ∈ Shift.entries (Activity.task n t) none := by
  generalize hserver : s.server.finish r = server at hg
  cases hg with
  | ignores hl hd =>
    refine ⟨_, _, hl, hR (.nothing hd), rfl, fun id file hcheck => ?_⟩
    rw [hd] at hcheck
    cases hcheck
  | answers hl hd =>
    refine ⟨_, _, hl, hR (.answer hd), rfl, fun id file hcheck => ?_⟩
    rw [hd] at hcheck
    cases hcheck
  | reports =>
    obtain ⟨line, file, hl, hd⟩ := h
    exact ⟨line, _, hl, hR (.report hd), rfl, fun _ _ _ => List.mem_singleton.mpr rfl⟩
  | dies hstep =>
    obtain ⟨line, file, hl, hd⟩ := h
    exact ⟨line, _, hl, hf _ _ _ rfl (.inl ⟨_, hstep⟩) (.died hd), rfl,
      fun _ _ _ => List.mem_singleton.mpr rfl⟩
  | expires hblocked hdeadline hl hr =>
    obtain ⟨line, file, hl', hd⟩ := h
    obtain rfl := Option.some.inj (hl.symm.trans hl')
    exact ⟨_, _, hl, hf _ _ _ rfl (.inr ⟨hblocked, hdeadline⟩) (.cutOff hd), by rw [hr],
      fun _ _ _ => List.mem_singleton.mpr rfl⟩

end Activity

namespace Shift

variable {s s' : Shift σ π} {e : Event σ}

/-! ## The ledger -/

/-- What is known of a line that is done with: what was sent for it is as `R` says, and if it asks for a
check, the check is over. -/
inductive Settled (R : String → Option Response → Prop) (lines : List String)
    (journal : List (Work × Bool)) : Nat × Option Response → Prop where
  | intro {n : Nat} {line : String} {r : Option Response} (hl : lines[n]? = some line)
      (hs : R line r)
      (hc : ∀ id file, Demand.ofLine line = .check id file → (.check n, true) ∈ journal) :
      Settled R lines journal (n, r)

variable {R : String → Option Response → Prop}

theorem Settled.append {lines : List String} {journal : List (Work × Bool)}
    {p : Nat × Option Response} (h : Settled R lines journal p) (more : List String)
    (entries : List (Work × Bool)) : Settled R (lines ++ more) (journal ++ entries) p := by
  cases h with
  | intro hl hs hc =>
    obtain ⟨hlt, -⟩ := List.getElem?_eq_some_iff.mp hl
    exact .intro ((List.getElem?_append_left hlt).trans hl) hs fun id file hd =>
      List.mem_append_left _ (hc id file hd)

/-- The lines that were taken are those with a task under way and those that are done with, and what
was sent is what was made of the latter. -/
structure Ledger (R : String → Option Response → Prop) (s : Shift σ π)
    (done : List (Nat × Option Response)) : Prop where
  rightful : ∀ a ∈ s.jobs, a.Rightful s.server.lines
  numbers : (s.pending ++ done.map (·.1)).Perm (List.range s.server.lines.length)
  settled : ∀ p ∈ done, Settled R s.server.lines s.journal p
  sent : s.server.output.map (·.2) ++ s.server.outbox = done.filterMap (·.2)

variable {done : List (Nat × Option Response)}

theorem Ledger.of_takes {line : String} {rest : List UInt8} (hl : s.Ledger R done) :
    Ledger R { s with
      main := some .reading
      serving := ⟨s.server.takeLine line rest, s.serving.rest⟩
      jobs := s.jobs ++
        if isBlankLine line then [] else [.task s.server.lines.length .arrived] } done := by
  unfold Server.takeLine
  split_ifs
  · rw [List.append_nil]
    exact ⟨hl.rightful, hl.numbers, hl.settled, hl.sent⟩
  · refine ⟨fun a ha => ?_, ?_, fun p hp => ?_, hl.sent⟩
    · rcases List.mem_append.mp ha with ha | ha
      · exact (hl.rightful a ha).append _
      · rw [List.mem_singleton.mp ha]
        trivial
    · show ((s.jobs ++ [_]).filterMap Activity.number? ++ _).Perm
        (List.range (s.server.lines ++ [line]).length)
      rw [List.filterMap_append, List.length_append, List.length_singleton, List.range_succ]
      have hswap : (s.pending ++ [s.server.lines.length] ++ done.map (·.1)).Perm
          (s.pending ++ done.map (·.1) ++ [s.server.lines.length]) := by
        rw [List.append_assoc, List.append_assoc]
        exact List.perm_append_comm.append_left _
      exact hswap.trans (hl.numbers.append_right _)
    · have happend := (hl.settled p hp).append [line] []
      rw [List.append_nil] at happend
      exact happend

theorem Ledger.of_ticks (hl : s.Ledger R done) :
    Ledger R { s with
      main := some .reading
      serving := ⟨s.server.tick, s.serving.rest⟩
      jobs := s.jobs ++
        (s.server.policy.idleTimeout.map fun d => Activity.reaping (c.reap d)).toList } done := by
  rw [Server.tick_eq]
  refine ⟨fun a ha => ?_, ?_, hl.settled, hl.sent⟩
  · rcases List.mem_append.mp ha with ha | ha
    · exact hl.rightful a ha
    · obtain ⟨d, -, rfl⟩ := Option.map_eq_some_iff.mp (Option.mem_toList.mp ha)
      trivial
  · show ((s.jobs ++ _).filterMap Activity.number? ++ _).Perm _
    rw [filterMap_ticks fun _ => rfl]
    exact hl.numbers

/-- A job that is a check that fails, fails. -/
theorem fails_of_job {l r : List (Activity π)} {n : Nat} {t : Task π}
    (hj : s.jobs = l ++ .task n t :: r) {deadline : Time} {id : Option Wire.Id} {x : π}
    (ht : t = .checking deadline id x)
    (hx : (∃ st, c.step s.now s.serving.rest x = .done st none) ∨
      (c.step s.now s.serving.rest x).isBlocked = true ∧ deadline ≤ s.now) :
    s.Fails c (.go (.job l.length)) := by
  subst ht
  refine ⟨_, n, deadline, id, x, rfl, ?_, hx⟩
  show s.jobs[l.length]? = _
  rw [hj, List.getElem?_append_right (Nat.le_refl _), Nat.sub_self]
  rfl

theorem perm_move {l r done : List Nat} (n : Nat) :
    (l ++ [] ++ r ++ (done ++ [n])).Perm (l ++ [n] ++ r ++ done) := by
  rw [List.append_nil, List.append_assoc l [n] r, List.singleton_append, ← List.append_assoc]
  have hlast : (l ++ r ++ done ++ [n]).Perm (n :: (l ++ r ++ done)) := List.perm_append_singleton ..
  have hmiddle : (l ++ n :: r ++ done).Perm (n :: (l ++ r ++ done)) :=
    List.perm_middle.append_right done
  exact hlast.trans hmiddle.symm

/-- A step of a job keeps the ledger, with one more line that is done with if the job is over. -/
theorem Ledger.of_works {l r : List (Activity π)} {a : Activity π} {a' : Option (Activity π)}
    {server : Server} {rest : σ} (hl : s.Ledger R done) (hj : s.jobs = l ++ a :: r)
    (ha : isJob a = true) (hR : ∀ {line r}, Serves line r → R line r)
    (hf : s.Fails c (.go (.job l.length)) →
      ∀ {line r}, Fallout s.server.policy.requestTimeout line r → R line r)
    (hg : a.Goes c s.now s.serving ⟨server, rest⟩ a') :
    ∃ done', Ledger R { s with
      serving := ⟨server, rest⟩
      jobs := l ++ a'.toList ++ r
      journal := s.journal ++ entries a a' } done' := by
  have hjobs : ∀ b ∈ s.jobs, b.Rightful s.server.lines := hl.rightful
  have hnumbers := hl.numbers
  rw [hj] at hjobs
  rw [pending_of_jobs hj] at hnumbers
  have hright : a.Rightful s.server.lines := hjobs a (by simp)
  have hothers : ∀ b ∈ l ++ r, b.Rightful s.server.lines := fun b hb => hjobs b (by
    rcases List.mem_append.mp hb with hb | hb <;> simp [hb])
  have hold : ∀ p ∈ done, Settled R s.server.lines (s.journal ++ entries a a') p := fun p hp => by
    have happend := (hl.settled p hp).append [] (entries a a')
    rwa [List.append_nil] at happend
  cases Activity.toils_of_goes ha hg with
  | goesOn hn =>
    refine ⟨done, fun b hb => ?_, ?_, hold, hl.sent⟩
    · simp only [Option.toList_some, List.append_assoc, List.singleton_append, List.mem_append,
        List.mem_cons] at hb
      rcases hb with hb | rfl | hb
      · exact hothers b (List.mem_append_left _ hb)
      · have hb := Activity.rightful_of_goes hright hg
        exact hb
      · exact hothers b (List.mem_append_right _ hb)
    · show ((l ++ Option.toList _ ++ r).filterMap Activity.number? ++ _).Perm _
      rw [filterMap_put, Option.bind_some, hn]
      exact hnumbers
  | reaped =>
    refine ⟨done, fun b hb => ?_, ?_, hold, hl.sent⟩
    · rw [Option.toList_none, List.append_nil] at hb
      exact hothers b hb
    · show ((l ++ Option.toList none ++ r).filterMap Activity.number? ++ _).Perm _
      rw [filterMap_put]
      exact hnumbers
  | @ends n t =>
    obtain ⟨line, r', hline, hsettles, heq, hcheck⟩ :=
      Activity.serves_of_goes hR hright (fun _ _ _ ht hx => hf (fails_of_job hj ht hx)) hg
    rw [heq]
    refine ⟨done ++ [(n, r')], fun b hb => ?_, ?_, fun p hp => ?_, ?_⟩
    · rw [Option.toList_none, List.append_nil] at hb
      exact hothers b hb
    · show ((l ++ Option.toList none ++ r).filterMap Activity.number? ++ _).Perm _
      rw [filterMap_put, List.map_append]
      refine List.Perm.trans ?_ hnumbers
      exact perm_move n
    · rcases List.mem_append.mp hp with hp | hp
      · exact hold p hp
      · rw [List.mem_singleton.mp hp]
        exact .intro hline hsettles fun id file hd => List.mem_append_right _ (hcheck id file hd)
    · show s.server.output.map (·.2) ++ (s.server.outbox ++ r'.toList) = _
      rw [← List.append_assoc, hl.sent, List.filterMap_append]
      cases r' <;> rfl

/-- **The ledger.** Every event keeps the ledger, if what is sent for a line whose check fails is as it
says. -/
theorem Ledger.of_deed (hl : s.Ledger R done) (hR : ∀ {line r}, Serves line r → R line r)
    (hf : s.Fails c e → ∀ {line r}, Fallout s.server.policy.requestTimeout line r → R line r)
    (hd : s.Deed c e s') : ∃ done', s'.Ledger R done' := by
  have hshutdown (ended : Bool) : ∀ p ∈ done,
      Settled R s.server.lines (s.journal ++ [(.shutdown, ended)]) p := by
    intro p hp
    have happend := (hl.settled p hp).append [] [(.shutdown, ended)]
    rwa [List.append_nil] at happend
  cases hd with
  | elapses | stirs | arrives | closes | leaves | ends | drains | ceases =>
    exact ⟨done, hl.rightful, hl.numbers, hl.settled, hl.sent⟩
  | stops => exact ⟨done, hl.rightful, hl.numbers, hshutdown false, hl.sent⟩
  | stopped => exact ⟨done, hl.rightful, hl.numbers, hshutdown true, hl.sent⟩
  | writes hw hbox =>
    refine ⟨done, hl.rightful, hl.numbers, hl.settled, ?_⟩
    rw [← hl.sent, hbox]
    show (s.server.output ++ [_]).map Prod.snd ++ _ = _
    rw [List.map_append, List.append_assoc]
    rfl
  | takes => exact ⟨done, hl.of_takes⟩
  | ticks => exact ⟨done, hl.of_ticks⟩
  | works hj ha hg => exact hl.of_works hj ha hR hf hg

/-- What is sent for a line: what it asks for, unless its check fails. -/
def Delivers (limit : Duration) (line : String) (r : Option Response) : Prop :=
  Serves line r ∨ Fallout limit line r

theorem delivered_of_reachable {P : Shift σ π → Event σ → Prop} (h : Reachable c P s) :
    ∃ done, s.Ledger (Delivers s.server.policy.requestTimeout) done := by
  refine h.keeps
    (I := fun s => ∃ done, s.Ledger (Delivers s.server.policy.requestTimeout) done)
    (fun policy rest => ⟨[], nofun, .refl _, nofun, rfl⟩) ?_
  rintro s s' e ⟨done, hl⟩ - hd
  rw [policy_of_deed hd]
  exact hl.of_deed .inl (fun _ => .inr) hd

/-- What is sent for a line: what it needs, unless its check fails. -/
def Handles (limit : Duration) (line : String) (r : Option Response) : Prop :=
  Settles line r ∨ Fallout limit line r

theorem Ledger.mono {R' : String → Option Response → Prop} (hl : s.Ledger R done)
    (hR : ∀ {line r}, R line r → R' line r) : s.Ledger R' done := by
  refine ⟨hl.rightful, hl.numbers, fun p hp => ?_, hl.sent⟩
  cases hl.settled p hp with
  | intro hline hs hc => exact .intro hline (hR hs) hc

/-- When all lines are done with, what was sent is something for each of them, in some order. -/
theorem Ledger.sorted (hl : s.Ledger R done) (hj : s.jobs = []) :
    ∃ rs, List.Forall₂ R s.server.lines rs ∧
      (s.server.output.map (·.2) ++ s.server.outbox).Perm rs.reduceOption := by
  have hnumbers := hl.numbers
  rw [pending, hj, List.filterMap_nil, List.nil_append] at hnumbers
  have hown : List.Forall₂ (fun n p => p.1 = n) (done.map (·.1)) done :=
    List.forall₂_map_left_iff.mpr (List.forall₂_same.mpr fun _ _ => rfl)
  obtain ⟨sorted, hsorted, hperm⟩ := List.perm_comp_forall₂ hnumbers.symm hown
  obtain ⟨hlength, hget⟩ := List.forall₂_iff_get.mp hsorted
  rw [List.length_range] at hlength
  refine ⟨sorted.map (·.2), ?_, ?_⟩
  · rw [List.forall₂_map_right_iff, List.forall₂_iff_get]
    refine ⟨hlength, fun i hi hi' => ?_⟩
    have hn : (sorted.get ⟨i, hi'⟩).1 = i := by
      rw [hget i (by simpa using hi) hi', List.get_eq_getElem, List.getElem_range]
    have hp := hl.settled _ (hperm.mem_iff.mp (List.get_mem sorted ⟨i, hi'⟩))
    generalize sorted.get ⟨i, hi'⟩ = p at hn hp
    cases hp with
    | intro hline hs =>
      subst hn
      rw [List.getElem?_eq_getElem hi] at hline
      cases hline
      exact hs
  · rw [hl.sent, List.reduceOption, List.filterMap_map]
    exact (hperm.filterMap _).symm

/-- What was sent for lines that are all done with, and whose checks have not failed, are the answers to
those that need one, in some order. -/
theorem Ledger.answers (hl : s.Ledger Settles done) (hj : s.jobs = []) :
    ∃ rs, List.Forall₂ Answers (s.server.lines.filter needsAnswer) rs ∧
      (s.server.output.map (·.2) ++ s.server.outbox).Perm rs := by
  obtain ⟨rs, hsettles, hperm⟩ := hl.sorted hj
  exact ⟨_, answers_of_settles hsettles, hperm⟩

/-- When all lines are done with, every check that a line asks for is over. -/
theorem Ledger.checked {done : List (Nat × Option Response)} {n : Nat} {line file : String}
    {id : Option Wire.Id} (hl : s.Ledger R done) (hj : s.jobs = [])
    (hn : s.server.lines[n]? = some line) (hd : Demand.ofLine line = .check id file) :
    (.check n, true) ∈ s.journal := by
  have hnumbers := hl.numbers
  rw [pending, hj, List.filterMap_nil, List.nil_append] at hnumbers
  obtain ⟨hlt, -⟩ := List.getElem?_eq_some_iff.mp hn
  obtain ⟨p, hp, rfl⟩ := List.mem_map.mp (hnumbers.mem_iff.mpr (List.mem_range.mpr hlt))
  cases hl.settled p hp with
  | intro hline _ hcheck =>
    obtain rfl := Option.some.inj (hline.symm.trans hn)
    exact hcheck id file hd

end Shift

end DiagnosticBroker.Tool
