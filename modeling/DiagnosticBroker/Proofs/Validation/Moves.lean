import DiagnosticBroker.Proofs.Pool.Moves
import DiagnosticBroker.Proofs.Validation.Inspection

/-!
# What a step of a check can do

One relation for each layer of a check lists all that a step of it can do: a round, the work with
restarts, the check. Each of them says what is noted: a session is noted as opened when its document
is announced, and as closed when its document is closed and its waiter is given back.

Results:
* `goes_of_round`: what a step of a round can do.
* `proceeds_of_execute`: what a step of the work can do.
* `happens_of_act`: what an event can do.
-/

namespace DiagnosticBroker

variable {files : FileTree} {now : Time} {w : Surroundings} {p q : Pool}

/-! ## Rounds -/

theorem Pool.setInstance_self {i : Nat} {x : Instance} (hx : p.instance? i = some x) :
    p.setInstance i x = p := by
  have hset : p.instances.set i x = p.instances := by
    obtain ⟨hlt, rfl⟩ := List.getElem?_eq_some_iff.mp hx
    exact List.set_getElem_self hlt
  rw [setInstance, hset]

/-- What a step of a round can do, and what is noted of it. -/
inductive Round.Goes (files : FileTree) (now : Time) (p : Pool) :
    Round → Pool → Task Round Wait.Outcome → List Note → Prop where
  | reads {o : Session.Opening} {text : String} (ht : o.text = none)
      (hr : DocumentText.read files p.directory o.path o.limit = .ok text) :
      Goes files now p (.opening o) p (.running (.opening { o with text := some text })) []
  | unreadable {o : Session.Opening} {f : Fault} (ht : o.text = none)
      (hr : DocumentText.read files p.directory o.path o.limit = .error f) :
      Goes files now p (.opening o) p (.ended (.error f)) []
  | opens {o : Session.Opening} {text : String} {x y : Instance} {version : Int} {waiter : Waiter}
      (ht : o.text = some text) (hx : p.instance? o.index = some x)
      (ho : x.openDocument now (Uri.ofPath p.directory o.path) o.languageId text =
        (y, .ok (version, waiter))) :
      Goes files now p (.opening o) (p.setInstance o.index y)
        (.running (.waiting ⟨o.index, o.languageId, waiter, none⟩
          ⟨waiter, p.budget.diagnosticsTimeout, p.budget.settle, .begin⟩))
        [.opened o.index waiter]
  | refused {o : Session.Opening} {text : String} {x y : Instance} {f : Fault}
      (ht : o.text = some text) (hx : p.instance? o.index = some x)
      (ho : x.openDocument now (Uri.ofPath p.directory o.path) o.languageId text =
        (y, .error f)) :
      Goes files now p (.opening o) (p.setInstance o.index y) (.ended (.error f)) []
  | waits {s : Session} {v v' : Wait} {x : Instance} (hx : p.instance? s.index = some x)
      (hv : v.step now x.collector = .next x.collector v') :
      Goes files now p (.waiting s v) p (.running (.waiting s v')) []
  | hears {s : Session} {v : Wait} {x : Instance} {o : Wait.Outcome}
      (hx : p.instance? s.index = some x)
      (hv : v.step now x.collector = .done x.collector o) :
      Goes files now p (.waiting s v) p (.running (.closing (s.keep o) o))
        [.heard s.index s.waiter (x.collector.channelOf s.waiter).snapshot o]
  | closes {s : Session} {o : Wait.Outcome} :
      Goes files now p (.closing s o) (s.close p) (.ended (outcomeOf p.budget o))
        [.closed s.index s.waiter]

theorem goes_of_opening {o : Session.Opening} {t : Task Round Wait.Outcome}
    (h : ((Round.opening o).step files now p).Becomes q t) :
    (Round.opening o).Goes files now p q t ((Round.opening o).notes p t.rest?) := by
  simp only [Round.step, Session.Opening.step] at h
  split at h <;> rename_i ht
  · split at h <;> rename_i hr <;> cases h
    · exact .unreadable ht hr
    · exact .reads ht hr
  · split at h <;> rename_i hx
    · cases h
    · cases hopen : Instance.openDocument _ now (Uri.ofPath p.directory o.path) o.languageId _ with
      | mk y r =>
        rw [hopen] at h
        cases r with
        | ok v =>
          cases h
          exact .opens ht hx hopen
        | error f =>
          cases h
          exact .refused ht hx hopen

/-- What a step of a wait can do: it goes on or ends, and leaves the collector alone. -/
theorem Wait.goes_of_wait {v : Wait} {c c' : Collector} {t : Task Wait Wait.Outcome}
    (h : (v.step now c).Becomes c' t) :
    (∃ v', v.step now c = .next c v' ∧ c' = c ∧ t = .running v') ∨
      ∃ o, v.step now c = .done c o ∧ c' = c ∧ t = .ended o := by
  have hs := Wait.steps now c v
  generalize v.step now c = st at h hs
  cases hs <;> cases h
  case begins | seen | replaced => exact .inl ⟨_, rfl, rfl, rfl⟩
  case taken | gone | late | cutOff | settled => exact .inr ⟨_, rfl, rfl, rfl⟩

theorem goes_of_waiting {s : Session} {v : Wait} {t : Task Round Wait.Outcome}
    (h : ((Round.waiting s v).step files now p).Becomes q t) :
    (Round.waiting s v).Goes files now p q t ((Round.waiting s v).notes p t.rest?) := by
  rcases h.of_within with ⟨v', hv, rfl⟩ | ⟨st, o, hv, h⟩
  · obtain ⟨x, y, hx, hy, rfl⟩ := hv.of_onInstance
    obtain ⟨c, hc, rfl⟩ := hy.of_lift
    rcases Wait.goes_of_wait hc with ⟨v'', hs, rfl, ht⟩ | ⟨o, hs, rfl, ht⟩ <;> cases ht
    rw [Pool.setInstance_self hx]
    exact .waits hx hs
  · obtain ⟨x, y, hx, hy, rfl⟩ := hv.of_onInstance
    obtain ⟨c, hc, rfl⟩ := hy.of_lift
    rcases Wait.goes_of_wait hc with ⟨v'', hs, rfl, ht⟩ | ⟨o', hs, rfl, ht⟩ <;> cases ht
    rw [Pool.setInstance_self hx] at h
    cases h
    have hnote : p.snapshotOf s.index s.waiter = (x.collector.channelOf s.waiter).snapshot := by
      rw [Pool.snapshotOf, hx]
    simp only [Round.notes, Task.rest?, hnote]
    exact .hears hx hs

/-- **Rounds.** A step of a round does one of the things that `Round.Goes` lists. -/
theorem goes_of_round {r : Round} {t : Task Round Wait.Outcome}
    (h : (r.step files now p).Becomes q t) :
    r.Goes files now p q t (r.notes p t.rest?) := by
  cases r with
  | opening o => exact goes_of_opening h
  | waiting s v => exact goes_of_waiting h
  | closing s o =>
    cases h
    exact .closes

/-! ## Work with restarts -/

/-- What is noted of a step of the work. -/
def Execute.notes (p : Pool) (x : Execute Round) (t : Task (Execute Round) Wait.Outcome) :
    List Note :=
  match x.run? with
  | some r => r.notes p (t.rest?.bind Execute.run?)
  | none => []

/-- What a step of the work for a check can do, and what is noted of it. -/
inductive Execute.Proceeds (files : FileTree) (path languageId : String) (w : Surroundings) (p : Pool)
    (x : Execute Round) : Pool → Task (Execute Round) Wait.Outcome → List Note → Prop where
  | ensures {q : Pool} {e e' : Ensure} (hp : x.phase = .ensuring e)
      (he : e.Goes w p q (.running e')) :
      Proceeds files path languageId w p x q (.running (x.enter (.ensuring e'))) []
  | begins {q : Pool} {e : Ensure} {i : Nat} (hp : x.phase = .ensuring e)
      (he : e.Goes w p q (.ended (.ok i))) :
      Proceeds files path languageId w p x q
        (.running (x.enter (.running i
          (.opening ⟨i, path, languageId, p.budget.maxFileSizeBytes, none⟩)))) []
  | unready {q : Pool} {e : Ensure} {f : Fault} (hp : x.phase = .ensuring e)
      (he : e.Goes w p q (.ended (.error f))) :
      Proceeds files path languageId w p x q (.ended (.error f)) []
  | goesOn {q : Pool} {i : Nat} {r r' : Round} {notes : List Note} (hp : x.phase = .running i r)
      (hr : r.Goes files w.now p q (.running r') notes) :
      Proceeds files path languageId w p x q (.running (x.enter (.running i r'))) notes
  | gives {q : Pool} {i : Nat} {r : Round} {o : Wait.Outcome} {notes : List Note}
      (hp : x.phase = .running i r) (hr : r.Goes files w.now p q (.ended o) notes) :
      Proceeds files path languageId w p x q (.ended o) notes
  | breaks {q : Pool} {i : Nat} {r : Round} {f : Fault} {notes : List Note}
      (hp : x.phase = .running i r) (hr : r.Goes files w.now p q (.ended (.error f)) notes)
      (hlt : x.restarts + 1 < q.budget.startAttempts) :
      Proceeds files path languageId w p x q (.running (x.enter (.retiring i .remove))) notes
  | retires {q : Pool} {i : Nat} {r r' : Retire} (hp : x.phase = .retiring i r)
      (hr : r.Goes w p x.backend.command i q (.running r')) :
      Proceeds files path languageId w p x q (.running (x.enter (.retiring i r'))) []
  | retired {q : Pool} {i : Nat} {r : Retire} (hp : x.phase = .retiring i r)
      (hr : r.Goes w p x.backend.command i q (.ended ())) (deadline : Time) :
      Proceeds files path languageId w p x q (.running (x.enter (.pausing deadline))) []
  | restarts {deadline : Time} (hp : x.phase = .pausing deadline) :
      Proceeds files path languageId w p x p (.running
        { x with restarts := x.restarts + 1, phase := .ensuring { backend := x.backend } }) []

theorem run?_of_phase {x : Execute Round} {i : Nat} {r : Round} (hp : x.phase = .running i r) :
    x.run? = some r := by rw [Execute.run?, hp]

/-- What the work does when a round has ended. -/
theorem proceeds_of_ended {path languageId : String} {x : Execute Round} {i : Nat} {r : Round}
    {p' : Pool} {o : Wait.Outcome} {t : Task (Execute Round) Wait.Outcome}
    (hp : x.phase = .running i r) (hr : r.Goes files w.now p p' (.ended o) (r.notes p none))
    (h : (Execute.ran p' x i o).Becomes q t) :
    x.Proceeds files path languageId w p q t (x.notes p t) := by
  unfold Execute.notes
  rw [run?_of_phase hp]
  cases o with
  | ok ds =>
    cases h
    exact .gives hp hr
  | error f =>
    simp only [Execute.ran] at h
    split_ifs at h with hf
    · obtain ⟨-, hlt⟩ := Bool.and_eq_true_iff.mp hf
      cases h
      exact .breaks hp hr (of_decide_eq_true hlt)
    · cases h
      exact .gives hp hr

/-- **Work.** A step of the work for a check does one of the things that `Execute.Proceeds` lists. -/
theorem proceeds_of_execute {path languageId : String} {x : Execute Round}
    {t : Task (Execute Round) Wait.Outcome}
    (h : (x.step (Round.work files path languageId p.budget.maxFileSizeBytes) w p).Becomes q t) :
    x.Proceeds files path languageId w p q t (x.notes p t) := by
  have hquiet : (∀ i r, x.phase ≠ .running i r) → x.notes p t = [] := by
    intro hp
    unfold Execute.notes Execute.run?
    cases hx : x.phase with
    | running i r => exact absurd hx (hp i r)
    | ensuring | retiring | pausing => rfl
  unfold Execute.step at h
  cases hp : x.phase <;> simp only [hp] at h
  case ensuring e =>
    rw [hquiet (by simp [hp])]
    rcases h.of_within with ⟨e', he, rfl⟩ | ⟨st, r, he, h⟩
    · exact .ensures hp (goes_of_ensure he)
    · cases r with
      | ok i => cases h; exact .begins hp (goes_of_ensure he)
      | error f => cases h; exact .unready hp (goes_of_ensure he)
  case running i r =>
    rcases h.of_within with ⟨r', hr, rfl⟩ | ⟨p', o, hr, h⟩
    · unfold Execute.notes
      rw [run?_of_phase hp]
      exact .goesOn hp (goes_of_round hr)
    · exact proceeds_of_ended hp (goes_of_round hr) h
  case retiring i r =>
    rw [hquiet (by simp [hp])]
    rcases h.of_within with ⟨r', hr, rfl⟩ | ⟨st, a, hr, h⟩
    · exact .retires hp (goes_of_retire hr)
    · cases h
      exact .retired hp (goes_of_retire hr) _
  case pausing deadline =>
    rw [hquiet (by simp [hp])]
    split_ifs at h
    · cases h; exact .restarts hp
    · cases h

/-! ## Checks -/

/-- What a step of a check can do, and what is noted of it. -/
inductive Validation.Goes (r : Rules) (files : FileTree) (w : Surroundings) (p : Pool)
    (v : Validation) : Pool → Task Validation Report → List Note → Prop where
  | rejects {f : BrokerFault} (hp : v.phase = .begin)
      (hs : select r files p.directory v.file = .error f) :
      Goes r files w p v p (.ended (report v.file (.error f))) []
  | selects {path : String} {b : Backend} (hp : v.phase = .begin)
      (hs : select r files p.directory v.file = .ok (path, b)) :
      Goes r files w p v p
        (.running { v with phase := .working path b.languageId (.start b) }) []
  | works {path languageId : String} {x x' : Execute Round} {q : Pool} {notes : List Note}
      (hp : v.phase = .working path languageId x)
      (hx : x.Proceeds files path languageId w p q (.running x') notes) :
      Goes r files w p v q (.running { v with phase := .working path languageId x' }) notes
  | ends {path languageId : String} {x : Execute Round} {q : Pool} {o : Wait.Outcome}
      {notes : List Note} (hp : v.phase = .working path languageId x)
      (hx : x.Proceeds files path languageId w p q (.ended o) notes) :
      Goes r files w p v q (.ended (report v.file (outcomeOf o))) notes

theorem round?_of_phase {v : Validation} {path languageId : String} {x : Execute Round}
    (hp : v.phase = .working path languageId x) : v.round? = x.run? := by
  rw [Validation.round?, hp]

/-- **Checks.** A step of a check does one of the things that `Validation.Goes` lists. -/
theorem goes_of_validation {r : Rules} {v : Validation} {t : Task Validation Report}
    (h : (v.reportStep r files w p).Becomes q t) :
    v.Goes r files w p q t (Task.notes p (.running v) t) := by
  have hstep : ∀ {t'}, (v.step r files w p).Becomes q t' →
      (∃ v', t' = .running v' ∧ t = .running v') ∨
        (∃ o, t' = .ended o ∧ t = .ended (Validation.report v.file o)) →
      v.Goes r files w p q t (Task.notes p (.running v) t) := by
    intro t' hs ht
    have hnotes : Task.notes p (.running v) t =
      match v.round? with
      | some r => r.notes p t.round?
      | none => [] := rfl
    rw [hnotes]
    unfold Validation.step at hs
    cases hp : v.phase with
    | begin =>
      have hround : v.round? = none := by rw [Validation.round?, hp]
      simp only [hp] at hs
      rw [hround]
      split at hs <;> rename_i hsel <;> cases hs
      · obtain ⟨v', hv, -⟩ | ⟨o, ho, rfl⟩ := ht
        · cases hv
        · cases ho
          exact .rejects hp hsel
      · obtain ⟨v', hv, rfl⟩ | ⟨o, ho, -⟩ := ht
        · cases hv
          exact .selects hp hsel
        · cases ho
    | working path languageId x =>
      simp only [hp] at hs
      rw [round?_of_phase hp]
      rcases hs.of_within with ⟨x', hx, rfl⟩ | ⟨st, o, hx, hs⟩
      · obtain ⟨v', hv, rfl⟩ | ⟨o, ho, -⟩ := ht
        · cases hv
          exact .works hp (proceeds_of_execute hx)
        · cases ho
      · cases hs
        obtain ⟨v', hv, -⟩ | ⟨o, ho, rfl⟩ := ht
        · cases hv
        · cases ho
          exact .ends hp (proceeds_of_execute hx)
  rcases h.of_within with ⟨v', hv, rfl⟩ | ⟨st, o, hv, h⟩
  · exact hstep hv (.inl ⟨v', rfl, rfl⟩)
  · cases h
    exact hstep hv (.inr ⟨o, rfl, rfl⟩)

/-! ## Events -/

namespace Inspection

/-- What an event can do. -/
inductive Happens (s : Inspection) : Event → Inspection → Prop where
  | steps {exited : Nat → Bool} {v : Validation} {q : Pool} {t : Task Validation Report}
      {notes : List Note} (hv : s.check = .running v)
      (hg : v.Goes s.rules s.files (s.depot.surroundings exited) s.depot.pool q t notes) :
      Happens s (.step exited)
        { s with
          depot := { s.depot with pool := q }
          check := t
          journal := s.journal ++ notes }
  | others {e : Depot.Event} {d : Depot} (ha : s.depot.act e = some d) :
      Happens s (.other e) { s with depot := d }
  | edits (files : FileTree) : Happens s (.edit files) { s with files := files }

/-- **Events.** An event does one of the things that `Happens` lists. -/
theorem happens_of_act {s s' : Inspection} {e : Event} (h : s.act e = some s') : s.Happens e s' := by
  cases e with
  | step exited =>
    obtain ⟨⟨q, t⟩, ha, rfl⟩ := Option.map_eq_some_iff.mp h
    obtain ⟨v, hv, hs⟩ := Task.becomes_of_advance ha
    have hg := goes_of_validation hs
    rw [← hv] at hg
    exact .steps hv hg
  | other e =>
    obtain ⟨d, hd, rfl⟩ := Option.map_eq_some_iff.mp h
    exact .others hd
  | edit files =>
    cases h
    exact .edits files

end Inspection

end DiagnosticBroker
