import DiagnosticBroker.Proofs.Tool.Lines
import DiagnosticBroker.Proofs.Tool.Shift

/-!
# What a server counts and reads

The server waits for what is under way by counting: its jobs, and those who may still send responses.
The counts are right at all times, so that it goes on when all jobs are over, and so that the writer
ends when nothing more can be sent and not before. The lines that were taken and those of the bytes
that were not read are the lines of all that has arrived.

Results:
* `toils_of_goes`: what a step of a job does to the server.
* `Counted.of_deed`: the counts stay right.
* `Reads.of_deed`: no line is lost, and none is taken twice.
-/

namespace DiagnosticBroker.Tool

variable {σ π : Type} {c : Checker σ π} {now : Time}

theorem Server.tick_eq (s : Server) :
    s.tick = { s with
      ticks := s.ticks + 1
      reaps := s.reaps + s.policy.idleTimeout.toList.length
      unfinished := s.unfinished + s.policy.idleTimeout.toList.length } := by
  cases h : s.policy.idleTimeout <;> simp [Server.tick, h]

/-! ## What a job does to the server -/

namespace Activity

/-- The number of the line that a task is for. -/
def number? : Activity π → Option Nat
  | .task n _ => some n
  | _ => none

/-- What a step of a job comes to for the server: it goes on, or is done with its line, or with
looking for unused backends. -/
inductive Toils (before : Server) : Activity π → Server → Option (Activity π) → Prop where
  | goesOn {a b : Activity π} {queue : List Nat} {free : Nat} (h : b.number? = a.number?) :
      Toils before a { before with queue := queue, free := free } (some b)
  | ends {n : Nat} {t : Task π} {r : Option Response} :
      Toils before (.task n t) (before.finish r) none
  | reaped {x : π} : Toils before (.reaping x) before.finishReap none

variable {s : Serving σ} {server : Server} {rest : σ} {a : Activity π} {a' : Option (Activity π)}

theorem toils_of_goes (ha : Shift.isJob a = true) (hg : a.Goes c now s ⟨server, rest⟩ a') :
    a.Toils s.server server a' := by
  cases hg with
  | writes | leaves | takes | ends | ticks | drains | stops | stopped | closes => cases ha
  | queues | begins | checks | continues | reaps => exact .goesOn rfl
  | ignores | answers | reports | dies | expires => exact .ends
  | reaped => exact .reaped

end Activity

namespace Shift

variable {s s' : Shift σ π} {e : Event σ}

/-- The numbers of the lines whose tasks are under way. -/
def pending (s : Shift σ π) : List Nat := s.jobs.filterMap Activity.number?

/-- How many responses the server itself may still send through its outbox, as the writer sees it. -/
def own (s : Shift σ π) : Nat :=
  match s.main with
  | none => 0
  | some .closing => 0
  | some _ => 1

/-! ## Counts -/

/-- The server's counts are right, and nothing is under way when it has ceased to wait for it. -/
structure Counted (s : Shift σ π) : Prop where
  unfinished : s.server.unfinished = s.jobs.length
  senders : s.server.senders = s.pending.length + s.own
  jobs : s.main = some .reading ∨ s.main = some .draining ∨ s.jobs = []
  writer : s.server.writerEnded = true → s.server.outbox = [] ∧ s.server.senders = 0
  stopped : s.server.stopped = true → s.main = none ∧ s.server.writerEnded = true

theorem Counted.new (policy : ServerPolicy) (rest : σ) : (new policy rest : Shift σ π).Counted :=
  ⟨rfl, rfl, .inl rfl, nofun, nofun⟩

theorem own_of_main {a : Activity π} (h : s.main = some a) (ha : a ≠ .closing) : s.own = 1 := by
  unfold own
  rw [h]
  cases a <;> first | rfl | exact absurd rfl ha

theorem filterMap_put {β : Type} (f : Activity π → Option β) (l r : List (Activity π))
    (a : Option (Activity π)) :
    (l ++ a.toList ++ r).filterMap f = l.filterMap f ++ (a.bind f).toList ++ r.filterMap f := by
  rw [List.filterMap_append, List.filterMap_append]
  cases a with
  | none => rfl
  | some a =>
    simp only [Option.toList_some, List.filterMap_cons, List.filterMap_nil, Option.bind_some]
    cases f a <;> rfl

theorem pending_of_jobs {l r : List (Activity π)} {a : Activity π} (h : s.jobs = l ++ a :: r) :
    s.pending =
      l.filterMap Activity.number? ++ a.number?.toList ++ r.filterMap Activity.number? := by
  have hsplit := filterMap_put Activity.number? l r (some a)
  rw [Option.toList_some, List.append_assoc, List.singleton_append, ← h] at hsplit
  exact hsplit

/-- As long as jobs are under way, the server reads or waits for them. -/
theorem Counted.main_of_jobs {l r : List (Activity π)} {a : Activity π} (hc : s.Counted)
    (h : s.jobs = l ++ a :: r) : s.main = some .reading ∨ s.main = some .draining := by
  rcases hc.jobs with hm | hm | hnil
  · exact .inl hm
  · exact .inr hm
  · rw [h] at hnil
    exact absurd hnil (by simp)

/-- When the server neither reads nor waits for its jobs, none are under way. -/
theorem Counted.jobs_eq_nil {a : Activity π} (hc : s.Counted) (hm : s.main = some a)
    (hr : a ≠ .reading) (hd : a ≠ .draining) : s.jobs = [] := by
  rcases hc.jobs with h | h | hnil
  · exact absurd (Option.some.inj (hm.symm.trans h)) hr
  · exact absurd (Option.some.inj (hm.symm.trans h)) hd
  · exact hnil

theorem Counted.of_toils {l r : List (Activity π)} {a : Activity π} {a' : Option (Activity π)}
    {server : Server} {rest : σ} {journal : List (Work × Bool)} (hc : s.Counted)
    (hj : s.jobs = l ++ a :: r) (ht : a.Toils s.server server a') :
    Counted { s with
      serving := ⟨server, rest⟩, jobs := l ++ a'.toList ++ r, journal := journal } := by
  have hunfinished := hc.unfinished
  have hsenders := hc.senders
  have hmain := hc.main_of_jobs hj
  rw [hj] at hunfinished
  rw [pending_of_jobs hj] at hsenders
  simp only [List.length_append, List.length_cons] at hunfinished hsenders
  have hjobs : s.main = some .reading ∨ s.main = some .draining ∨ l ++ a'.toList ++ r = [] :=
    hmain.elim .inl fun h => .inr (.inl h)
  refine ⟨?_, ?_, hjobs, ?_, ?_⟩
  · simp only [List.length_append]
    cases ht with
    | goesOn => exact hunfinished.trans (by simp; omega)
    | ends =>
      show s.server.unfinished - 1 = _
      simp only [Option.toList_none, List.length_nil]
      omega
    | reaped =>
      show s.server.unfinished - 1 = _
      simp only [Option.toList_none, List.length_nil]
      omega
  · show server.senders = ((l ++ a'.toList ++ r).filterMap Activity.number?).length + s.own
    rw [filterMap_put]
    simp only [List.length_append]
    cases ht with
    | goesOn hn =>
      rw [Option.bind_some, hn]
      exact hsenders
    | ends =>
      show s.server.senders - 1 = _
      simp only [Activity.number?, Option.toList_some, List.length_singleton] at hsenders
      simp only [Option.bind_none, Option.toList_none, List.length_nil]
      omega
    | reaped => exact hsenders
  · cases ht with
    | goesOn => exact hc.writer
    | ends =>
      intro hw
      have hnone := (hc.writer hw).2
      simp only [Activity.number?, Option.toList_some, List.length_singleton] at hsenders
      omega
    | reaped => exact hc.writer
  · cases ht <;> exact hc.stopped

/-- While the server itself may send something, the writer has not ended. -/
theorem Counted.writerEnded_ne {a : Activity π} (hc : s.Counted) (hm : s.main = some a)
    (ha : a ≠ .closing) : s.server.writerEnded ≠ true := by
  intro hw
  have hnone := (hc.writer hw).2
  have hsenders := hc.senders
  rw [own_of_main hm ha] at hsenders
  omega

/-- A server that does something has not stopped. -/
theorem Counted.stopped_ne {a : Activity π} (hc : s.Counted) (hm : s.main = some a) :
    s.server.stopped ≠ true := by
  intro h
  rw [(hc.stopped h).1] at hm
  cases hm

theorem Counted.of_takes {line : String} {rest : List UInt8} (hc : s.Counted)
    (hm : s.main = some .reading) :
    Counted { s with
      main := some .reading
      serving := ⟨s.server.takeLine line rest, s.serving.rest⟩
      jobs := s.jobs ++
        if isBlankLine line then [] else [.task s.server.lines.length .arrived] } := by
  have hsenders := hc.senders
  rw [own_of_main hm nofun] at hsenders
  have hwriter := hc.writerEnded_ne hm nofun
  have hstopped := hc.stopped_ne hm
  unfold Server.takeLine
  split_ifs
  · rw [List.append_nil]
    exact ⟨hc.unfinished, hsenders, .inl rfl, fun h => absurd h hwriter, fun h => absurd h hstopped⟩
  · refine ⟨?_, ?_, .inl rfl, fun h => absurd h hwriter, fun h => absurd h hstopped⟩
    · show s.server.unfinished + 1 = _
      rw [hc.unfinished, List.length_append, List.length_singleton]
    · show s.server.senders + 1 = (List.filterMap _ (s.jobs ++ _)).length + 1
      rw [hsenders, List.filterMap_append, List.length_append]
      rfl

/-- Looking for unused backends is no task. -/
theorem filterMap_ticks {β : Type} {f : Activity π → Option β} (hf : ∀ x, f (.reaping x) = none)
    (jobs : List (Activity π)) (d? : Option Duration) :
    (jobs ++ (d?.map fun d => Activity.reaping (c.reap d)).toList).filterMap f =
      jobs.filterMap f := by
  rw [List.filterMap_append]
  cases d? with
  | none => exact List.append_nil _
  | some d => simp [hf]

theorem Counted.of_ticks (hc : s.Counted) (hm : s.main = some .reading) :
    Counted { s with
      main := some .reading
      serving := ⟨s.server.tick, s.serving.rest⟩
      jobs := s.jobs ++
        (s.server.policy.idleTimeout.map fun d => Activity.reaping (c.reap d)).toList } := by
  have hsenders := hc.senders
  rw [own_of_main hm nofun] at hsenders
  have hwriter := hc.writerEnded_ne hm nofun
  have hstopped := hc.stopped_ne hm
  have hlength : (s.server.policy.idleTimeout.map fun d => Activity.reaping (c.reap d)).toList.length =
      s.server.policy.idleTimeout.toList.length := by
    cases s.server.policy.idleTimeout <;> rfl
  rw [Server.tick_eq]
  refine ⟨?_, ?_, .inl rfl, fun h => absurd h hwriter, fun h => absurd h hstopped⟩
  · show s.server.unfinished + _ = _
    rw [hc.unfinished, List.length_append, hlength]
  · show s.server.senders = (List.filterMap _ (s.jobs ++ _)).length + 1
    rw [hsenders, filterMap_ticks fun _ => rfl]
    rfl

theorem Counted.of_deed (hc : s.Counted) (hd : s.Deed c e s') : s'.Counted := by
  have hsenders := hc.senders
  cases hd with
  | elapses | stirs | arrives | closes =>
    exact ⟨hc.unfinished, hc.senders, hc.jobs, hc.writer, hc.stopped⟩
  | writes hw hbox =>
    refine ⟨hc.unfinished, hc.senders, hc.jobs, fun hended => ?_, hc.stopped⟩
    rw [(hc.writer hended).1] at hbox
    cases hbox
  | leaves hw hbox hnone =>
    exact ⟨hc.unfinished, hc.senders, hc.jobs, fun _ => ⟨hbox, hnone⟩,
      fun h => ⟨(hc.stopped h).1, rfl⟩⟩
  | takes hm => exact hc.of_takes hm
  | ticks hm => exact hc.of_ticks hm
  | ends hm =>
    rw [own_of_main hm nofun] at hsenders
    exact ⟨hc.unfinished, hsenders, .inr (.inl rfl), hc.writer, fun h => absurd h (hc.stopped_ne hm)⟩
  | drains hm hnone =>
    rw [own_of_main hm nofun] at hsenders
    have hjobs : s.jobs = [] := List.eq_nil_of_length_eq_zero (hc.unfinished.symm.trans hnone)
    exact ⟨hc.unfinished, hsenders, .inr (.inr hjobs), hc.writer,
      fun h => absurd h (hc.stopped_ne hm)⟩
  | stops hm =>
    rw [own_of_main hm nofun] at hsenders
    exact ⟨hc.unfinished, hsenders, .inr (.inr (hc.jobs_eq_nil hm nofun nofun)), hc.writer,
      fun h => absurd h (hc.stopped_ne hm)⟩
  | stopped hm =>
    rw [own_of_main hm nofun] at hsenders
    refine ⟨hc.unfinished, ?_, .inr (.inr (hc.jobs_eq_nil hm nofun nofun)),
      fun h => absurd h (hc.writerEnded_ne hm nofun), fun h => absurd h (hc.stopped_ne hm)⟩
    show s.server.senders - 1 = s.pending.length
    rw [hsenders, Nat.add_sub_cancel]
  | ceases hm hended =>
    have hown : s.own = 0 := by
      rw [own, hm]
    rw [hown] at hsenders
    exact ⟨hc.unfinished, hsenders, .inr (.inr (hc.jobs_eq_nil hm nofun nofun)), hc.writer,
      fun _ => ⟨rfl, hended⟩⟩
  | works hj ha hg => exact hc.of_toils hj (Activity.toils_of_goes ha hg)

/-- The policy of a server stays. -/
theorem policy_of_deed (hd : s.Deed c e s') : s'.server.policy = s.server.policy := by
  cases hd with
  | elapses | stirs | arrives | closes | writes | leaves | ends | drains | stops | stopped
  | ceases => rfl
  | takes =>
    unfold Server.takeLine
    split_ifs <;> rfl
  | ticks =>
    rw [Server.tick_eq]
    rfl
  | works hj ha hg => cases Activity.toils_of_goes ha hg <;> rfl

/-! ## Lines -/

/-- The lines that are still to be taken if certain bytes are all that will arrive. -/
def unread (s : Shift σ π) (more : List UInt8) : List String :=
  match s.main with
  | some .reading => (linesOf (s.server.input ++ more)).filter fun line => !isBlankLine line
  | _ => []

/-- The lines that were taken and those that are still to be taken are the lines of all bytes. -/
def Reads (s : Shift σ π) : Prop :=
  ∀ more, (s.server.inputClosed = true → more = []) →
    ((linesOf (s.arrived ++ more)).filter fun line => !isBlankLine line) =
      s.server.lines ++ s.unread more

theorem unread_of_reading (h : s.main = some .reading) (more : List UInt8) :
    s.unread more = (linesOf (s.server.input ++ more)).filter fun line => !isBlankLine line := by
  rw [unread, h]

theorem unread_of_ne {a : Activity π} (h : s.main = some a) (ha : a ≠ .reading)
    (more : List UInt8) : s.unread more = [] := by
  unfold unread
  rw [h]
  cases a <;> first | rfl | exact absurd rfl ha

theorem Reads.of_takes {line : String} {rest : List UInt8} {jobs : List (Activity π)}
    (hr : s.Reads) (hm : s.main = some .reading)
    (hnext : Incoming.next s.server.inputClosed s.server.input = .line line rest) :
    Reads { s with
      main := some .reading
      serving := ⟨s.server.takeLine line rest, s.serving.rest⟩
      jobs := jobs } := by
  intro more hmore
  have hclosed : s.server.inputClosed = true → more = [] := by
    unfold Server.takeLine at hmore
    split_ifs at hmore <;> exact hmore
  have hwhole : Incoming.next true (s.server.input ++ more) = .line line (rest ++ more) := by
    rw [Incoming.next_append (by rw [hnext]; nofun) hclosed, hnext]
    rfl
  have hall := hr more hclosed
  rw [unread_of_reading hm, linesOf_of_line hwhole] at hall
  rw [hall, unread_of_reading rfl]
  unfold Server.takeLine
  split_ifs with hblank
  · rw [List.filter_cons_of_neg (by rw [hblank]; exact Bool.false_ne_true)]
    rfl
  · rw [List.filter_cons_of_pos (by rw [Bool.eq_false_iff.mpr hblank]; rfl)]
    show _ = (s.server.lines ++ [line]) ++ _
    rw [List.append_assoc]
    rfl

theorem Reads.of_ends {ending : Ending} {i : Incoming} (hr : s.Reads)
    (hm : s.main = some .reading) (hi : i = .unreadable ∨ i = .ended)
    (hnext : Incoming.next s.server.inputClosed s.server.input = i) :
    Reads { s with
      main := some .draining
      serving := ⟨{ s.server with ending := some ending }, s.serving.rest⟩ } := by
  intro more (hmore : s.server.inputClosed = true → more = [])
  have hwhole : Incoming.next true (s.server.input ++ more) = i := by
    rw [Incoming.next_append (by rw [hnext]; rcases hi with rfl | rfl <;> nofun) hmore, hnext]
    rcases hi with rfl | rfl <;> rfl
  have hnone : linesOf (s.server.input ++ more) = [] := linesOf_of_end fun line rest hl => by
    rw [hwhole] at hl
    rcases hi with rfl | rfl <;> cases hl
  have hall := hr more hmore
  rw [unread_of_reading hm, hnone] at hall
  exact hall

theorem Reads.of_deed (hr : s.Reads) (hd : s.Deed c e s') : s'.Reads := by
  cases hd with
  | elapses | stirs | writes | leaves => exact hr
  | arrives bytes hopen =>
    intro more hmore
    have hall := hr (bytes ++ more) fun h => absurd h (by rw [hopen]; exact Bool.false_ne_true)
    simp only [unread, server, Server.feed, List.append_assoc] at hall ⊢
    exact hall
  | closes => exact fun more hmore => hr more fun _ => hmore rfl
  | takes hm hnext => exact hr.of_takes hm hnext
  | ticks hm =>
    intro more hmore
    rw [Server.tick_eq] at hmore ⊢
    have hall := hr more hmore
    rw [unread_of_reading hm] at hall
    exact hall
  | ends hm hi hnext => exact hr.of_ends hm hi hnext
  | drains hm | stops hm | stopped hm | ceases hm =>
    intro more hmore
    have hall := hr more hmore
    rw [unread_of_ne hm fun h => by cases h] at hall
    exact hall
  | works hj ha hg =>
    cases Activity.toils_of_goes ha hg <;> exact hr

end Shift

end DiagnosticBroker.Tool
