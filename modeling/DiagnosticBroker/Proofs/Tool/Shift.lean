import DiagnosticBroker.Tool.Server
import Mathlib.Tactic.SplitIfs

/-!
# Everything that happens at a tool server

A `Shift` is a server together with all that is under way at it: its writer, the server itself, and
its tasks. A `Shift.Event` is one step of any of these, or bytes that arrive, or time that passes, or
something that happens among those who check files; `Shift.act` says what it does, and any order of
events is a run. So checks may end in any order, and lines may arrive in any pieces.

A shift keeps what has arrived, and a journal of the steps of those who check files.

Results:
* `goes_of_step`: what a step of an activity can do.
* `deed_of_act`: what an event can do.
-/

namespace DiagnosticBroker

/-- What a step comes to: the state, and how the operation goes on unless it is over. -/
def Step.outcome? {σ ρ α : Type} : Step σ ρ α → Option (σ × Option ρ)
  | .blocked _ => none
  | .next st r => some (st, some r)
  | .later st r => some (st, some r)
  | .done st _ => some (st, none)

namespace Tool

variable {σ π : Type} {c : Checker σ π} {now : Time} {s s' : Serving σ}

/-! ## Activities -/

/-- How the reading ends at what the front of the input holds, if it does. -/
def Incoming.ending? : Incoming → Option Ending
  | .unreadable => some .unreadable
  | .ended => some .complete
  | _ => none

namespace Activity

/-- What a step of an activity can do. -/
inductive Goes (c : Checker σ π) (now : Time) (s : Serving σ) :
    Activity π → Serving σ → Option (Activity π) → Prop where
  | writes {r : Response} {rest : List Response} (h : s.server.outbox = r :: rest) :
      Goes c now s .writing
        { s with server := { s.server with
            outbox := rest, output := s.server.output ++ [(now, r)] } } (some .writing)
  | leaves (h : s.server.outbox = []) (hs : s.server.senders = 0) :
      Goes c now s .writing { s with server := { s.server with writerEnded := true } } none
  | takes {line : String} {rest : List UInt8}
      (h : Incoming.next s.server.inputClosed s.server.input = .line line rest) :
      Goes c now s .reading { s with server := s.server.takeLine line rest } (some .reading)
  | ends {ending : Ending} {i : Incoming} (hi : i = .unreadable ∨ i = .ended)
      (h : Incoming.next s.server.inputClosed s.server.input = i) (he : i.ending? = some ending) :
      Goes c now s .reading { s with server := { s.server with ending := some ending } }
        (some .draining)
  | ticks (h : Incoming.next s.server.inputClosed s.server.input = .waiting) :
      Goes c now s .reading { s with server := s.server.tick } (some .reading)
  | drains (h : s.server.unfinished = 0) : Goes c now s .draining s (some (.stopping c.shutdown))
  | stops {x x' : π} {st : σ} (h : (c.step now s.rest x).outcome? = some (st, some x')) :
      Goes c now s (.stopping x) { s with rest := st } (some (.stopping x'))
  | stopped {x : π} {st : σ} :
      Goes c now s (.stopping x) ⟨s.server.leaveOutbox, st⟩ (some .closing)
  | closes (h : s.server.writerEnded = true) :
      Goes c now s .closing { s with server := { s.server with stopped := true } } none
  | queues {n : Nat} :
      Goes c now s (.task n .arrived)
        { s with server := { s.server with queue := s.server.queue ++ [n] } } (some (.task n .queued))
  | begins {n : Nat} {deadline : Time} (h : s.server.isTurnOf n = true) :
      Goes c now s (.task n .queued) { s with server := s.server.beginTask n }
        (some (.task n (.begun deadline)))
  | ignores {n : Nat} {deadline : Time} {line : String} (hl : s.server.lines[n]? = some line)
      (h : Demand.ofLine line = .nothing) :
      Goes c now s (.task n (.begun deadline)) { s with server := s.server.finish none } none
  | answers {n : Nat} {deadline : Time} {line : String} {r : Response}
      (hl : s.server.lines[n]? = some line) (h : Demand.ofLine line = .answer r) :
      Goes c now s (.task n (.begun deadline)) { s with server := s.server.finish (some r) } none
  | checks {n : Nat} {deadline : Time} {line file : String} {id : Option Wire.Id}
      (hl : s.server.lines[n]? = some line) (h : Demand.ofLine line = .check id file) :
      Goes c now s (.task n (.begun deadline)) s
        (some (.task n (.checking deadline id (c.check file))))
  | continues {n : Nat} {deadline : Time} {id : Option Wire.Id} {x x' : π} {st : σ}
      (h : (c.step now s.rest x).outcome? = some (st, some x')) :
      Goes c now s (.task n (.checking deadline id x)) { s with rest := st }
        (some (.task n (.checking deadline id x')))
  | reports {n : Nat} {deadline : Time} {id : Option Wire.Id} {x : π} {st : σ} {report : Report} :
      Goes c now s (.task n (.checking deadline id x))
        ⟨s.server.finish (some (.success id report.toolResult)), st⟩ none
  | dies {n : Nat} {deadline : Time} {id : Option Wire.Id} {x : π} {st : σ}
      (h : c.step now s.rest x = .done st none) :
      Goes c now s (.task n (.checking deadline id x)) ⟨s.server.finish none, st⟩ none
  | expires {n : Nat} {deadline : Time} {id : Option Wire.Id} {x : π} {st : σ}
      {line : String} {r : Option Response} (h : (c.step now s.rest x).isBlocked = true)
      (hd : deadline ≤ now) (hl : s.server.lines[n]? = some line)
      (hr : r = overdue? line s.server.policy.requestTimeout) :
      Goes c now s (.task n (.checking deadline id x)) ⟨s.server.finish r, st⟩ none
  | reaps {x x' : π} {st : σ} (h : (c.step now s.rest x).outcome? = some (st, some x')) :
      Goes c now s (.reaping x) { s with rest := st } (some (.reaping x'))
  | reaped {x : π} {st : σ} : Goes c now s (.reaping x) ⟨s.server.finishReap, st⟩ none

variable {a : Activity π} {a' : Option (Activity π)}

theorem goes_of_write (h : (write now s).outcome? = some (s', a')) :
    Goes c now s .writing s' a' := by
  unfold write at h
  split at h <;> rename_i hbox
  · cases h
    exact .writes hbox
  · split_ifs at h with hs
    · cases h
      exact .leaves hbox hs
    · cases h

theorem goes_of_read (h : (read now s).outcome? = some (s', a')) :
    Goes c now s .reading s' a' := by
  unfold read at h
  simp only at h
  split at h <;> rename_i hnext
  · cases h
    exact .takes hnext
  · cases h
    exact .ends (.inl rfl) hnext rfl
  · cases h
    exact .ends (.inr rfl) hnext rfl
  · split_ifs at h
    · cases h
      exact .ticks hnext
    · cases h

theorem goes_of_task {n : Nat} {line : String} {t : Task π}
    (hl : s.server.lines[n]? = some line)
    (h : (stepTask c now s n line t).outcome? = some (s', a')) :
    Goes c now s (.task n t) s' a' := by
  cases t with
  | arrived =>
    cases h
    exact .queues
  | queued =>
    simp only [stepTask] at h
    split_ifs at h with hturn
    · cases h
      exact .begins hturn
    · cases h
  | begun deadline =>
    simp only [stepTask] at h
    split at h <;> rename_i hdemand
    · cases h
      exact .ignores hl hdemand
    · cases h
      exact .answers hl hdemand
    · cases h
      exact .checks hl hdemand
  | checking deadline id x =>
    simp only [stepTask] at h
    cases hx : c.step now s.rest x with
    | blocked u =>
      simp only [hx, Step.lift, Step.within, Step.orAt] at h
      split_ifs at h with hd
      · cases h
        exact .expires (by rw [hx]; rfl) hd hl rfl
      · cases u <;> cases h
    | next st x' =>
      simp only [hx, Step.lift, Step.within, Step.orAt] at h
      cases h
      exact .continues (by rw [hx]; rfl)
    | later st x' =>
      simp only [hx, Step.lift, Step.within, Step.orAt] at h
      cases h
      exact .continues (by rw [hx]; rfl)
    | done st r =>
      simp only [hx, Step.lift, Step.within, Step.orAt] at h
      cases r with
      | none =>
        cases h
        exact .dies hx
      | some report =>
        cases h
        exact .reports

/-- **Activities.** A step of an activity does one of the things that `Goes` lists. -/
theorem goes_of_step (h : (a.step c now s).outcome? = some (s', a')) : a.Goes c now s s' a' := by
  cases a with
  | writing => exact goes_of_write h
  | reading => exact goes_of_read h
  | draining =>
    simp only [step] at h
    split_ifs at h with hu
    · cases h
      exact .drains hu
    · cases h
  | stopping x =>
    simp only [step] at h
    cases hx : c.step now s.rest x <;> simp only [hx, Step.lift, Step.within] at h <;> cases h
    · exact .stops (by rw [hx]; rfl)
    · exact .stops (by rw [hx]; rfl)
    · exact .stopped
  | closing =>
    simp only [step] at h
    split_ifs at h with he
    · cases h
      exact .closes he
    · cases h
  | task n t =>
    simp only [step] at h
    split at h <;> rename_i hl
    · exact goes_of_task hl h
    · cases h
  | reaping x =>
    simp only [step] at h
    cases hx : c.step now s.rest x <;> simp only [hx, Step.lift, Step.within] at h <;> cases h
    · exact .reaps (by rw [hx]; rfl)
    · exact .reaps (by rw [hx]; rfl)
    · exact .reaped

end Activity

/-! ## Shifts -/

/-- What those who check files can be asked for. -/
inductive Work where
  /-- The check for the line with a number. -/
  | check (number : Nat)
  | reap
  | shutdown
deriving DecidableEq, Repr

/-- The piece of work that an activity waits for. -/
def Activity.work? : Activity π → Option Work
  | .task n (.checking ..) => some (.check n)
  | .reaping _ => some .reap
  | .stopping _ => some .shutdown
  | _ => none

/-- A server and all that is under way at it. -/
structure Shift (σ π : Type) where
  now : Time := 0
  serving : Serving σ
  /-- The writer and the server itself, as long as they are not over. -/
  writer : Option (Activity π) := some .writing
  main : Option (Activity π) := some .reading
  /-- The tasks and the looks for unused backends that are not over. -/
  jobs : List (Activity π) := []
  /-- The bytes that have arrived. -/
  arrived : List UInt8 := []
  /-- The steps of those who check files: the piece of work, and whether it was over then. -/
  journal : List (Work × Bool) := []

/-- Who does something at a shift. -/
inductive Shift.Who where
  | writer
  | main
  | job (k : Nat)

/-- One thing that can happen. -/
inductive Shift.Event (σ : Type) where
  /-- Time passes. -/
  | elapse (duration : Nat)
  /-- Bytes arrive. -/
  | arrive (bytes : List UInt8)
  /-- No more bytes will arrive. -/
  | close
  /-- Something happens among those who check files. -/
  | stir (rest : σ)
  /-- A step of an activity. -/
  | go (who : Shift.Who)

namespace Shift

/-- A server that has begun to run. -/
def new (policy : ServerPolicy) (rest : σ) : Shift σ π where
  serving := ⟨.ofPolicy policy, rest⟩

def server (s : Shift σ π) : Server := s.serving.server

/-- The activity that somebody is at. -/
def activity? (s : Shift σ π) : Who → Option (Activity π)
  | .writer => s.writer
  | .main => s.main
  | .job k => s.jobs[k]?

/-- Somebody goes on to something else, or is done. -/
def put (s : Shift σ π) (who : Who) (a : Option (Activity π)) : Shift σ π :=
  match who with
  | .writer => { s with writer := a }
  | .main => { s with main := a }
  | .job k => { s with jobs := s.jobs.take k ++ a.toList ++ s.jobs.drop (k + 1) }

/-- What a step of an activity adds to the journal. -/
def entries (a : Activity π) (a' : Option (Activity π)) : List (Work × Bool) :=
  a.work?.toList.map fun w => (w, decide (a'.bind Activity.work? ≠ some w))

/-- Takes over what a step has come to, and with it the jobs that it has brought into being. -/
def moveOn (s : Shift σ π) (c : Checker σ π) (who : Who) (a : Activity π) (serving : Serving σ)
    (a' : Option (Activity π)) : Shift σ π :=
  let t := s.put who a'
  { t with
    serving := serving
    jobs := t.jobs ++ Activity.spawned c s.server serving.server
    journal := s.journal ++ entries a a' }

/-- What an event does; `none` if it cannot happen now. -/
def act (c : Checker σ π) (s : Shift σ π) : Event σ → Option (Shift σ π)
  | .elapse d => some { s with now := s.now + d }
  | .arrive bytes =>
    if s.server.inputClosed then none
    else
      some { s with
        serving := { s.serving with server := s.server.feed bytes }
        arrived := s.arrived ++ bytes }
  | .close => some { s with serving := { s.serving with server := s.server.closeInput } }
  | .stir rest => some { s with serving := { s.serving with rest := rest } }
  | .go who => do
    let a ← s.activity? who
    let (serving, a') ← (a.step c s.now s.serving).outcome?
    some (s.moveOn c who a serving a')

/-- What can come of a server that has read nothing, by events that have a property where they
happen. -/
inductive Reachable (c : Checker σ π) (P : Shift σ π → Event σ → Prop) : Shift σ π → Prop where
  | new (policy : ServerPolicy) (rest : σ) : Reachable c P (new policy rest)
  | step {s s' : Shift σ π} {e : Event σ} (h : Reachable c P s) (he : P s e)
      (ha : s.act c e = some s') : Reachable c P s'

/-- One event after the other. -/
def run (c : Checker σ π) (s : Shift σ π) : List (Event σ) → Option (Shift σ π)
  | [] => some s
  | e :: es => (s.act c e).bind fun s => s.run c es

/-- Whether a check dies, or is given up because its time is over. -/
def Fails (c : Checker σ π) (s : Shift σ π) (e : Event σ) : Prop :=
  ∃ who n deadline id x, e = .go who ∧ s.activity? who = some (.task n (.checking deadline id x)) ∧
    ((∃ rest, c.step s.now s.serving.rest x = .done rest none) ∨
      (c.step s.now s.serving.rest x).isBlocked = true ∧ deadline ≤ s.now)

/-! ## Who is at what -/

/-- Whether an activity is one of the server's jobs. -/
def isJob : Activity π → Bool
  | .task .. => true
  | .reaping _ => true
  | _ => false

/-- Everybody is at an activity of their own. -/
structure Placed (s : Shift σ π) : Prop where
  writer : ∀ {a}, s.writer = some a → a = .writing
  main : ∀ {a}, s.main = some a → isJob a = false ∧ a ≠ .writing
  jobs : ∀ {a}, a ∈ s.jobs → isJob a = true

/-- What an event can do at a shift where everybody is in place. -/
inductive Deed (c : Checker σ π) (s : Shift σ π) : Event σ → Shift σ π → Prop where
  | elapses (d : Nat) : Deed c s (.elapse d) { s with now := s.now + d }
  | stirs (rest : σ) : Deed c s (.stir rest) { s with serving := ⟨s.server, rest⟩ }
  | arrives (bytes : List UInt8) (h : s.server.inputClosed = false) :
      Deed c s (.arrive bytes) { s with
        serving := ⟨s.server.feed bytes, s.serving.rest⟩, arrived := s.arrived ++ bytes }
  | closes : Deed c s .close { s with serving := ⟨s.server.closeInput, s.serving.rest⟩ }
  | writes {r : Response} {rest : List Response} (hw : s.writer = some .writing)
      (h : s.server.outbox = r :: rest) :
      Deed c s (.go .writer) { s with
        writer := some .writing
        serving := ⟨{ s.server with
          outbox := rest, output := s.server.output ++ [(s.now, r)] }, s.serving.rest⟩ }
  | leaves (hw : s.writer = some .writing) (h : s.server.outbox = []) (hs : s.server.senders = 0) :
      Deed c s (.go .writer) { s with
        writer := none, serving := ⟨{ s.server with writerEnded := true }, s.serving.rest⟩ }
  | takes {line : String} {rest : List UInt8} (hm : s.main = some .reading)
      (h : Incoming.next s.server.inputClosed s.server.input = .line line rest) :
      Deed c s (.go .main) { s with
        main := some .reading
        serving := ⟨s.server.takeLine line rest, s.serving.rest⟩
        jobs := s.jobs ++
          if isBlankLine line then [] else [.task s.server.lines.length .arrived] }
  | ends {ending : Ending} {i : Incoming} (hm : s.main = some .reading)
      (hi : i = .unreadable ∨ i = .ended)
      (h : Incoming.next s.server.inputClosed s.server.input = i) (he : i.ending? = some ending) :
      Deed c s (.go .main) { s with
        main := some .draining
        serving := ⟨{ s.server with ending := some ending }, s.serving.rest⟩ }
  | ticks (hm : s.main = some .reading)
      (h : Incoming.next s.server.inputClosed s.server.input = .waiting) :
      Deed c s (.go .main) { s with
        main := some .reading
        serving := ⟨s.server.tick, s.serving.rest⟩
        jobs := s.jobs ++
          (s.server.policy.idleTimeout.map fun d => Activity.reaping (c.reap d)).toList }
  | drains (hm : s.main = some .draining) (h : s.server.unfinished = 0) :
      Deed c s (.go .main) { s with main := some (.stopping c.shutdown) }
  | stops {x x' : π} {rest : σ} (hm : s.main = some (.stopping x))
      (h : (c.step s.now s.serving.rest x).outcome? = some (rest, some x')) :
      Deed c s (.go .main) { s with
        main := some (.stopping x')
        serving := ⟨s.server, rest⟩
        journal := s.journal ++ [(.shutdown, false)] }
  | stopped {x : π} {rest : σ} (hm : s.main = some (.stopping x)) :
      Deed c s (.go .main) { s with
        main := some .closing
        serving := ⟨s.server.leaveOutbox, rest⟩
        journal := s.journal ++ [(.shutdown, true)] }
  | ceases (hm : s.main = some .closing) (h : s.server.writerEnded = true) :
      Deed c s (.go .main) { s with
        main := none, serving := ⟨{ s.server with stopped := true }, s.serving.rest⟩ }
  | works {l r : List (Activity π)} {a : Activity π} {a' : Option (Activity π)} {server : Server}
      {rest : σ} (hj : s.jobs = l ++ a :: r) (ha : isJob a = true)
      (hg : a.Goes c s.now s.serving ⟨server, rest⟩ a') :
      Deed c s (.go (.job l.length)) { s with
        serving := ⟨server, rest⟩
        jobs := l ++ a'.toList ++ r
        journal := s.journal ++ entries a a' }

variable {s s' : Shift σ π} {before after : Server}

theorem spawned_eq_nil (hl : after.lines = before.lines) (hr : after.reaps = before.reaps) :
    Activity.spawned c before after = [] := by
  simp only [Activity.spawned, hl, hr, Nat.sub_self]
  cases after.policy.idleTimeout <;> rfl

theorem spawned_takeLine (line : String) (rest : List UInt8) :
    Activity.spawned c before (before.takeLine line rest) =
      if isBlankLine line then [] else [.task before.lines.length .arrived] := by
  unfold Server.takeLine
  split_ifs
  · exact spawned_eq_nil rfl rfl
  · simp only [Activity.spawned, Nat.sub_self]
    cases before.policy.idleTimeout <;> simp

theorem spawned_tick : Activity.spawned c before before.tick =
    (before.policy.idleTimeout.map fun d => Activity.reaping (c.reap d)).toList := by
  cases h : before.policy.idleTimeout with
  | none => simp [Activity.spawned, Server.tick, h]
  | some d => simp [Activity.spawned, Server.tick, h]

/-- A job brings no other jobs into being. -/
theorem spawned_of_job {a : Activity π} {a' : Option (Activity π)} {t : Serving σ}
    {t' : Serving σ} (ha : isJob a = true) (hg : a.Goes c now t t' a') :
    Activity.spawned c t.server t'.server = [] := by
  cases hg with
  | writes | leaves | takes | ends | ticks | drains | stops | stopped | closes => cases ha
  | _ => exact spawned_eq_nil rfl rfl

theorem deed_of_writer {a : Activity π} {serving : Serving σ} {a' : Option (Activity π)}
    (hp : s.Placed) (ha : s.writer = some a) (hg : a.Goes c s.now s.serving serving a') :
    s.Deed c (.go .writer) (s.moveOn c .writer a serving a') := by
  obtain rfl := hp.writer ha
  have hquiet : Activity.spawned c s.server serving.server = [] := by
    cases hg <;> exact spawned_eq_nil rfl rfl
  simp only [moveOn, put, hquiet, List.append_nil]
  cases hg with
  | writes hbox => simpa [entries, Activity.work?, server] using Deed.writes ha hbox
  | leaves hbox hs => simpa [entries, Activity.work?, server] using Deed.leaves ha hbox hs

theorem deed_of_main {a : Activity π} {serving : Serving σ} {a' : Option (Activity π)}
    (hp : s.Placed) (ha : s.main = some a) (hg : a.Goes c s.now s.serving serving a') :
    s.Deed c (.go .main) (s.moveOn c .main a serving a') := by
  obtain ⟨hjob, hne⟩ := hp.main ha
  have hquiet (h : serving.server.lines = s.server.lines ∧ serving.server.reaps = s.server.reaps) :
      Activity.spawned c s.server serving.server = [] := spawned_eq_nil h.1 h.2
  simp only [moveOn, put]
  cases hg with
  | writes | leaves => exact absurd rfl hne
  | queues | begins | ignores | answers | checks | continues | reports | dies | expires | reaps
  | reaped => cases hjob
  | takes h =>
    simpa [entries, Activity.work?, server, spawned_takeLine] using Deed.takes (c := c) ha h
  | ticks h =>
    simpa [entries, Activity.work?, server, spawned_tick] using Deed.ticks (c := c) ha h
  | ends hi h he =>
    rw [hquiet ⟨rfl, rfl⟩]
    simpa [entries, Activity.work?, server] using Deed.ends ha hi h he
  | drains h =>
    rw [hquiet ⟨rfl, rfl⟩]
    simpa [entries, Activity.work?, server] using Deed.drains ha h
  | stops h =>
    rw [hquiet ⟨rfl, rfl⟩]
    simpa [entries, Activity.work?, server] using Deed.stops ha h
  | stopped =>
    rw [hquiet ⟨rfl, rfl⟩]
    simpa [entries, Activity.work?, server] using Deed.stopped ha
  | closes h =>
    rw [hquiet ⟨rfl, rfl⟩]
    simpa [entries, Activity.work?, server] using Deed.ceases ha h

theorem deed_of_job {k : Nat} {a : Activity π} {serving : Serving σ} {a' : Option (Activity π)}
    (hp : s.Placed) (ha : s.jobs[k]? = some a) (hg : a.Goes c s.now s.serving serving a') :
    s.Deed c (.go (.job k)) (s.moveOn c (.job k) a serving a') := by
  have hjob := hp.jobs (List.mem_of_getElem? ha)
  obtain ⟨hlt, hk⟩ := List.getElem?_eq_some_iff.mp ha
  have hsplit : s.jobs = s.jobs.take k ++ a :: s.jobs.drop (k + 1) := by
    rw [← hk, List.getElem_cons_drop, List.take_append_drop]
  have hquiet : Activity.spawned c s.server serving.server = [] := spawned_of_job hjob hg
  have hdeed := Deed.works hsplit hjob hg
  rw [List.length_take_of_le (Nat.le_of_lt hlt)] at hdeed
  simpa [moveOn, put, hquiet] using hdeed

/-- **Events.** An event does one of the things that `Deed` lists. -/
theorem deed_of_act {e : Event σ} (hp : s.Placed) (h : s.act c e = some s') : s.Deed c e s' := by
  cases e with
  | elapse d =>
    cases h
    exact .elapses d
  | arrive bytes =>
    simp only [act] at h
    split_ifs at h with hc
    cases h
    exact .arrives bytes (Bool.eq_false_iff.mpr hc)
  | close =>
    cases h
    exact .closes
  | stir rest =>
    cases h
    exact .stirs rest
  | go who =>
    simp only [act, Option.bind_eq_bind, Option.bind_eq_some_iff] at h
    obtain ⟨a, ha, ⟨serving, a'⟩, hstep, h⟩ := h
    have hg := Activity.goes_of_step hstep
    cases h
    cases who with
    | writer => exact deed_of_writer hp ha hg
    | main => exact deed_of_main hp ha hg
    | job k => exact deed_of_job hp ha hg

/-! ## Runs -/

theorem isJob_of_goes {a b : Activity π} {t t' : Serving σ} (ha : isJob a = true)
    (hg : a.Goes c now t t' (some b)) : isJob b = true := by
  cases hg with
  | writes | takes | ends | ticks | drains | stops | stopped => cases ha
  | _ => rfl

theorem placed_new (policy : ServerPolicy) (rest : σ) : (new policy rest : Shift σ π).Placed where
  writer h := by
    cases h
    rfl
  main h := by
    cases h
    exact ⟨rfl, nofun⟩
  jobs h := nomatch h

theorem Deed.placed {e : Event σ} (hd : s.Deed c e s') (hp : s.Placed) : s'.Placed := by
  have hold : ∀ {l : List (Activity π)}, (∀ a ∈ l, isJob a = true) →
      ∀ {a}, a ∈ s.jobs ++ l → isJob a = true := fun hl a ha =>
    (List.mem_append.mp ha).elim hp.jobs (hl a)
  cases hd with
  | elapses | stirs | arrives | closes => exact ⟨hp.writer, hp.main, hp.jobs⟩
  | writes => exact ⟨by rintro a ⟨⟩; rfl, hp.main, hp.jobs⟩
  | leaves => exact ⟨nofun, hp.main, hp.jobs⟩
  | ends | drains | stops | stopped =>
    exact ⟨hp.writer, by rintro a ⟨⟩; exact ⟨rfl, nofun⟩, hp.jobs⟩
  | ceases => exact ⟨hp.writer, nofun, hp.jobs⟩
  | takes =>
    refine ⟨hp.writer, by rintro a ⟨⟩; exact ⟨rfl, nofun⟩, hold fun a ha => ?_⟩
    split_ifs at ha
    · cases ha
    · rw [List.mem_singleton.mp ha]
      rfl
  | ticks =>
    refine ⟨hp.writer, by rintro a ⟨⟩; exact ⟨rfl, nofun⟩, hold fun a ha => ?_⟩
    obtain ⟨d, -, rfl⟩ := Option.map_eq_some_iff.mp (Option.mem_toList.mp ha)
    rfl
  | works hj ha hg =>
    refine ⟨hp.writer, hp.main, fun {b} hb => ?_⟩
    rcases List.mem_append.mp hb with hb | hb
    · rcases List.mem_append.mp hb with hb | hb
      · exact hp.jobs (hj ▸ List.mem_append_left _ hb)
      · rw [Option.mem_toList.mp hb] at hg
        exact isJob_of_goes ha hg
    · exact hp.jobs (hj ▸ List.mem_append_right _ (List.mem_cons_of_mem _ hb))

theorem placed_of_reachable {P : Shift σ π → Event σ → Prop} (h : Reachable c P s) : s.Placed := by
  induction h with
  | new policy rest => exact placed_new policy rest
  | step _ _ ha ih => exact (deed_of_act ih ha).placed ih

/-- What holds of a new server and is kept by what happens holds of all that can come of it. -/
theorem Reachable.keeps {P : Shift σ π → Event σ → Prop} {I : Shift σ π → Prop}
    (hnew : ∀ policy rest, I (Shift.new policy rest))
    (hdeed : ∀ {s s' : Shift σ π} {e : Event σ}, I s → P s e → s.Deed c e s' → I s')
    (h : Reachable c P s) : I s := by
  induction h with
  | new policy rest => exact hnew policy rest
  | step h he ha ih => exact hdeed ih he (deed_of_act (placed_of_reachable h) ha)

theorem Reachable.of_run {P : Shift σ π → Event σ → Prop} {es : List (Event σ)}
    (hs : Reachable c P s) (hp : ∀ s e, P s e) (hr : s.run c es = some s') : Reachable c P s' := by
  induction es generalizing s with
  | nil =>
    cases hr
    exact hs
  | cons e es ih =>
    obtain ⟨t, ha, hr⟩ := Option.bind_eq_some_iff.mp hr
    exact ih (hs.step (hp s e) ha) hr

end Shift

end Tool

end DiagnosticBroker
