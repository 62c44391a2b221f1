import DiagnosticBroker.Proofs.Instance.Events
import DiagnosticBroker.Proofs.Pool.Depot
import DiagnosticBroker.Proofs.Pool.Slots

/-!
# What the operations on a pool can do

For each operation on a pool, one relation lists all that a step of it can do, with the guards under
which it does so. Everything that is proved about runs is proved case by case from these relations.

Results:
* `goes_of_start`: what a step of a start can do.
* `goes_of_ensure`, `goes_of_execute`, `goes_of_stop`: what a step of an errand can do.
* `happens_of_act`: what an event can do.
-/

namespace DiagnosticBroker

/-! ## What a step comes to -/

theorem Step.Becomes.of_onInstance {ρ α : Type} {p q : Pool} {i : Nat}
    {f : Instance → Step Instance ρ α} {t : Task ρ α} (h : (p.onInstance i f).Becomes q t) :
    ∃ x y, p.instance? i = some x ∧ (f x).Becomes y t ∧ q = p.setInstance i y := by
  unfold Pool.onInstance at h
  split at h <;> rename_i hx
  · obtain ⟨y, hy, rfl⟩ := h.of_lift
    exact ⟨_, y, hx, hy, rfl⟩
  · cases h

variable {w : Surroundings} {p q : Pool} {n : Nat}

/-! ## Starts -/

/-- Whether the slot of a start is not settled or cleared yet. -/
def StartJob.isUnderWay (j : StartJob) : Bool :=
  match j.phase with
  | .over _ => false
  | .cleared _ => false
  | _ => true

/-- What a step of a start can do, before it is kept how far the start is. -/
inductive StartJob.Goes (w : Surroundings) (p : Pool) (n : Nat) (j : StartJob) :
    Pool → StartJob → Prop where
  | begins (hp : j.phase = .begin) : Goes w p n j (decide w.now p j).1 (decide w.now p j).2
  | connects {k l : Nat} (hp : j.phase = .launching k l)
      (hl : p.launchOutcome? l = some .connected) :
      Goes w p n j (p.addInstance j.backend).1
        { j with phase :=
            .starting k p.instances.length ⟨l, w.isProcess, w.clientProcess, .begin⟩ }
  | refused {k l : Nat} (hp : j.phase = .launching k l) (f : Fault)
      (hl : p.launchOutcome? l = some (.refused f)) : Goes w p n j p (afterFailure w.now j k f)
  | crashes {k l : Nat} (hp : j.phase = .launching k l) (task : Nat) (words : String)
      (hl : p.launchOutcome? l = some (.crashed task words)) :
      Goes w p n j p { j with phase := .crashed (causeOfDeath task words) }
  | starts {k i : Nat} {s s' : Instance.Start} {x y : Instance} (hp : j.phase = .starting k i s)
      (hx : p.instance? i = some x) (hs : (s.step w.now x).Becomes y (.running s')) :
      Goes w p n j (p.setInstance i y) { j with phase := .starting k i s' }
  | succeeds {k i : Nat} {s : Instance.Start} {x y : Instance} (hp : j.phase = .starting k i s)
      (hx : p.instance? i = some x) (hs : (s.step w.now x).Becomes y (.ended (.ok ()))) :
      Goes w p n j (p.setInstance i y) { j with phase := .settling (.ok i) }
  | fails {k i : Nat} {s : Instance.Start} {x y : Instance} {f : Fault}
      (hp : j.phase = .starting k i s) (hx : p.instance? i = some x)
      (hs : (s.step w.now x).Becomes y (.ended (.error f))) :
      Goes w p n j (p.setInstance i y) { j with phase := .stopping k i .begin f }
  | stops {k i : Nat} {s s' : Instance.Shutdown} {x y : Instance} {f : Fault}
      (hp : j.phase = .stopping k i s f) (hx : p.instance? i = some x)
      (hs : (s.step w.exited w.now x).Becomes y (.running s')) :
      Goes w p n j (p.setInstance i y) { j with phase := .stopping k i s' f }
  | stopped {k i : Nat} {s : Instance.Shutdown} {x y : Instance} {f : Fault}
      (hp : j.phase = .stopping k i s f) (hx : p.instance? i = some x)
      (hs : (s.step w.exited w.now x).Becomes y (.ended ())) :
      Goes w p n j (p.setInstance i y) (afterFailure w.now j k f)
  | resumes {k : Nat} {deadline : Time} (hp : j.phase = .pausing k deadline) :
      Goes w p n j (beginAttempt w.now p j k).1 (beginAttempt w.now p j k).2
  | marks (hp : j.phase = .marking) :
      Goes w p n j
        { p with unavailable :=
            j.backend.command :: p.unavailable.filter (· ≠ j.backend.command) }
        { j with phase :=
            .settling (.error (.unresponsive j.backend.command.text j.policy.maxAttempts)) }
  | settles {r : StartResult} (hp : j.phase = .settling r) (hh : p.held = false) :
      Goes w p n j (settle p j r).1 (settle p j r).2
  | clears {cause : String} (hp : j.phase = .crashed cause) (hh : p.held = false) :
      Goes w p n j (clear p n j cause).1 (clear p n j cause).2

/-- A start that is over does nothing. -/
def StartJob.Rests (p : Pool) (n : Nat) : Prop :=
  ∀ j, p.start? n = some j → j.isUnderWay = false

theorem goes_of_start {t : Task Unit Unit} (h : (StartJob.step w p n).Becomes q t) :
    q = p ∧ StartJob.Rests p n ∨
      ∃ j q₀ j', p.start? n = some j ∧ j.Goes w p n q₀ j' ∧ q = q₀.setStart n j' := by
  unfold StartJob.step at h
  split at h <;> rename_i hj
  case h_2 =>
    cases h
    exact .inl ⟨rfl, fun j hj' => by rw [hj] at hj'; cases hj'⟩
  case h_1 j =>
    have hgo : ∀ {q₀ j'}, j.Goes w p n q₀ j' → q = q₀.setStart n j' →
        q = p ∧ StartJob.Rests p n ∨
          ∃ j q₀ j', p.start? n = some j ∧ j.Goes w p n q₀ j' ∧ q = q₀.setStart n j' :=
      fun hg hq => .inr ⟨j, _, _, hj, hg, hq⟩
    have hrest : q = p → j.isUnderWay = false → q = p ∧ StartJob.Rests p n ∨
        ∃ j q₀ j', p.start? n = some j ∧ j.Goes w p n q₀ j' ∧ q = q₀.setStart n j' := by
      refine fun hq hw => .inl ⟨hq, fun j' hj' => ?_⟩
      rw [hj] at hj'
      cases hj'
      exact hw
    unfold StartJob.stepOf at h
    cases hp : j.phase <;> simp only [hp] at h
    case begin => cases h; exact hgo (.begins hp) rfl
    case launching k l =>
      cases hl : p.launchOutcome? l with
      | none => simp only [hl] at h; cases h
      | some o =>
        cases o <;> simp only [hl] at h
        case connected => cases h; exact hgo (.connects hp hl) rfl
        case refused f => cases h; exact hgo (.refused hp f hl) rfl
        case crashed task words => cases h; exact hgo (.crashes hp task words hl) rfl
    case starting k i s =>
      split at h <;> rename_i heq
      · cases h
      · cases h
        obtain ⟨x, y, hx, hs, rfl⟩ := (Step.Becomes.of_next heq).of_onInstance
        exact hgo (.starts hp hx hs) rfl
      · cases h
        obtain ⟨x, y, hx, hs, rfl⟩ := (Step.Becomes.of_later heq).of_onInstance
        exact hgo (.starts hp hx hs) rfl
      · cases h
        obtain ⟨x, y, hx, hs, rfl⟩ := (Step.Becomes.of_done heq).of_onInstance
        exact hgo (.succeeds hp hx hs) rfl
      · cases h
        obtain ⟨x, y, hx, hs, rfl⟩ := (Step.Becomes.of_done heq).of_onInstance
        exact hgo (.fails hp hx hs) rfl
    case stopping k i s f =>
      split at h <;> rename_i heq
      · cases h
      · cases h
        obtain ⟨x, y, hx, hs, rfl⟩ := (Step.Becomes.of_next heq).of_onInstance
        exact hgo (.stops hp hx hs) rfl
      · cases h
        obtain ⟨x, y, hx, hs, rfl⟩ := (Step.Becomes.of_later heq).of_onInstance
        exact hgo (.stops hp hx hs) rfl
      · cases h
        obtain ⟨x, y, hx, hs, rfl⟩ := (Step.Becomes.of_done heq).of_onInstance
        exact hgo (.stopped hp hx hs) rfl
    case pausing k deadline =>
      split_ifs at h
      · cases h; exact hgo (.resumes hp) rfl
      · cases h
    case marking => cases h; exact hgo (.marks hp) rfl
    case settling r =>
      split_ifs at h with hh
      · cases h
      · cases h; exact hgo (.settles hp (Bool.eq_false_iff.mpr hh)) rfl
    case crashed cause =>
      split_ifs at h with hh
      · cases h
      · cases h; exact hgo (.clears hp (Bool.eq_false_iff.mpr hh)) rfl
    case «over» r => cases h; exact hrest rfl (by rw [StartJob.isUnderWay, hp])
    case cleared cause => cases h; exact hrest rfl (by rw [StartJob.isUnderWay, hp])

/-! ## Getting an instance -/

/-- What a step of taking an instance out of use can do. -/
inductive Retire.Goes (w : Surroundings) (p : Pool) (c : Command) (i : Nat) :
    Retire → Pool → Task Retire Unit → Prop where
  | removes (hh : p.held = false) :
      Goes w p c i .remove (p.clearInstance c i) (.running (.stopping .begin))
  | stops {s s' : Instance.Shutdown} {x y : Instance} (hx : p.instance? i = some x)
      (hs : (s.step w.exited w.now x).Becomes y (.running s')) :
      Goes w p c i (.stopping s) (p.setInstance i y) (.running (.stopping s'))
  | stopped {s : Instance.Shutdown} {x y : Instance} (hx : p.instance? i = some x)
      (hs : (s.step w.exited w.now x).Becomes y (.ended ())) :
      Goes w p c i (.stopping s) (p.setInstance i y) (.ended ())

theorem goes_of_retire {c : Command} {i : Nat} {r : Retire} {t : Task Retire Unit}
    (h : (r.step w p c i).Becomes q t) : r.Goes w p c i q t := by
  cases r with
  | remove =>
    simp only [Retire.step] at h
    split_ifs at h with hh
    · cases h
    · cases h
      exact .removes (Bool.eq_false_iff.mpr hh)
  | stopping s =>
    rcases h.of_within with ⟨s', hs, rfl⟩ | ⟨st, a, hs, h⟩
    · obtain ⟨x, y, hx, hy, rfl⟩ := hs.of_onInstance
      exact .stops hx hy
    · cases h
      obtain ⟨x, y, hx, hy, rfl⟩ := hs.of_onInstance
      exact .stopped hx hy

/-- Takes the empty slot of a backend for a new start. -/
def Pool.claim (p : Pool) (b : Backend) : Pool :=
  Pool.setSlot { p with starts := p.starts ++ [{ backend := b }] } b.command
    (.initializing p.starts.length)

/-- What a step of a caller can do who wants a ready instance. -/
inductive Ensure.Goes (w : Surroundings) (p : Pool) (e : Ensure) :
    Pool → Task Ensure StartResult → Prop where
  | finds {i : Nat} (hp : e.phase = .look) (hs : p.Holds e.backend.command i) :
      Goes w p e p (.running (e.enter (.probe i)))
  | passes {i : Nat} (hp : e.phase = .probe i) : Goes w p e p (.running (e.enter (.touch i)))
  | rejects {i : Nat} (hp : e.phase = .look ∧ p.Holds e.backend.command i ∨ e.phase = .probe i) :
      Goes w p e p (.running (e.enter (.retire i .remove)))
  | touches {i : Nat} (hp : e.phase = .touch i) (hh : p.held = false) :
      Goes w p e (p.touchSlot e.backend.command) (.ended (.ok i))
  | retires {q : Pool} {i : Nat} {r r' : Retire} (hp : e.phase = .retire i r)
      (hr : r.Goes w p e.backend.command i q (.running r')) :
      Goes w p e q (.running (e.enter (.retire i r')))
  | retired {q : Pool} {i : Nat} {r : Retire} (hp : e.phase = .retire i r)
      (hr : r.Goes w p e.backend.command i q (.ended ())) :
      Goes w p e q (.running (e.enter .look))
  | enlists {j : Nat} (hp : e.phase = .look) (hs : p.Marks e.backend.command j) :
      Goes w p e p (.running (e.enter (.enlist j (((p.start? j).map (·.notices)).getD 0))))
  | parks {j seen : Nat} (hp : e.phase = .enlist j seen) (hs : p.Marks e.backend.command j) :
      Goes w p e p (.running (e.enter (.parked j seen)))
  | returns (hp : e.phase = .claim ∨ ∃ j seen, e.phase = .enlist j seen ∨ e.phase = .parked j seen) :
      Goes w p e p (.running (e.enter .look))
  | misses (hp : e.phase = .look) : Goes w p e p (.running (e.enter .claim))
  | claims (hp : e.phase = .claim) (hh : p.held = false)
      (hs : p.slot? e.backend.command = none) :
      Goes w p e (p.claim e.backend) (.running (e.enter (.joining p.starts.length)))
  | joins {j : Nat} {a : StartJob} {r : StartResult} (hp : e.phase = .joining j)
      (ha : p.start? j = some a) (hr : a.result? = some r) : Goes w p e p (.ended r)

theorem goes_of_looked {e : Ensure} {t : Task Ensure StartResult} (hp : e.phase = .look)
    (h : (e.looked p).Becomes q t) : e.Goes w p q t := by
  unfold Ensure.looked at h
  split at h <;> rename_i hs
  · split_ifs at h
    · cases h
      exact .finds hp ⟨_, hs⟩
    · cases h
      exact .rejects (.inl ⟨hp, _, hs⟩)
  · cases h
    exact .enlists hp hs
  · cases h
    exact .misses hp

theorem goes_of_ensure {e : Ensure} {t : Task Ensure StartResult}
    (h : (e.step w p).Becomes q t) : e.Goes w p q t := by
  unfold Ensure.step at h
  cases hp : e.phase <;> simp only [hp] at h
  case look =>
    split_ifs at h
    · cases h
    · exact goes_of_looked hp h
  case probe i =>
    split_ifs at h
    · cases h
      exact .passes hp
    · cases h
      exact .rejects (.inr hp)
  case touch i =>
    split_ifs at h with hh
    · cases h
    · cases h
      exact .touches hp (Bool.eq_false_iff.mpr hh)
  case retire i r =>
    rcases h.of_within with ⟨r', hr, rfl⟩ | ⟨st, a, hr, h⟩
    · exact .retires hp (goes_of_retire hr)
    · cases h
      exact .retired hp (goes_of_retire hr)
  case enlist j seen =>
    split_ifs at h with hh hs
    · cases h
    · cases h
      exact .parks hp hs
    · cases h
      exact .returns (.inr ⟨j, seen, .inl hp⟩)
  case parked j seen =>
    split at h
    · split_ifs at h
      · cases h
      · cases h
        exact .returns (.inr ⟨j, seen, .inr hp⟩)
    · cases h
      exact .returns (.inr ⟨j, seen, .inr hp⟩)
  case claim =>
    split_ifs at h with hh
    · cases h
    · unfold Ensure.claimed at h
      split at h <;> rename_i hs
      · cases h
        exact .returns (.inl hp)
      · cases h
        exact .claims hp (Bool.eq_false_iff.mpr hh) hs
  case joining j =>
    split at h <;> rename_i hr
    · cases h
      obtain ⟨a, ha, hr⟩ := Option.bind_eq_some_iff.mp hr
      exact .joins hp ha hr
    · cases h

/-! ## Work -/

/-- What a step of work can do. The verdict on a run of it can be anything. -/
inductive Execute.Goes (w : Surroundings) (p : Pool) (x : Execute Nat) :
    Pool → Task (Execute Nat) (Except Fault Nat) → Prop where
  | ensures {q : Pool} {e e' : Ensure} (hp : x.phase = .ensuring e) (he : e.Goes w p q (.running e')) :
      Goes w p x q (.running (x.enter (.ensuring e')))
  | begins {q : Pool} {e : Ensure} {i : Nat} (hp : x.phase = .ensuring e)
      (he : e.Goes w p q (.ended (.ok i))) :
      Goes w p x q (.running (x.enter (.running i i)))
  | fails {q : Pool} {e : Ensure} {f : Fault} (hp : x.phase = .ensuring e)
      (he : e.Goes w p q (.ended (.error f))) : Goes w p x q (.ended (.error f))
  | succeeds {i r : Nat} (hp : x.phase = .running i r) : Goes w p x p (.ended (.ok r))
  | gives {i r : Nat} (hp : x.phase = .running i r) (f : Fault) : Goes w p x p (.ended (.error f))
  | rejects {i r : Nat} (hp : x.phase = .running i r) :
      Goes w p x p (.running (x.enter (.retiring i .remove)))
  | retires {q : Pool} {i : Nat} {r r' : Retire} (hp : x.phase = .retiring i r)
      (hr : r.Goes w p x.backend.command i q (.running r')) :
      Goes w p x q (.running (x.enter (.retiring i r')))
  | retired {q : Pool} {i : Nat} {r : Retire} (hp : x.phase = .retiring i r)
      (hr : r.Goes w p x.backend.command i q (.ended ())) (deadline : Time) :
      Goes w p x q (.running (x.enter (.pausing deadline)))
  | restarts {deadline : Time} (hp : x.phase = .pausing deadline) :
      Goes w p x p (.running
        { x with restarts := x.restarts + 1, phase := .ensuring { backend := x.backend } })

theorem goes_of_execute {x : Execute Nat} {v : Except Fault Unit}
    {t : Task (Execute Nat) (Except Fault Nat)}
    (h : (x.step (Errand.workEnding v) w p).Becomes q t) : x.Goes w p q t := by
  unfold Execute.step at h
  cases hp : x.phase <;> simp only [hp] at h
  case ensuring e =>
    rcases h.of_within with ⟨e', he, rfl⟩ | ⟨st, r, he, h⟩
    · exact .ensures hp (goes_of_ensure he)
    · cases r with
      | ok i => cases h; exact .begins hp (goes_of_ensure he)
      | error f => cases h; exact .fails hp (goes_of_ensure he)
  case running i r =>
    cases v with
    | ok u => cases h; exact .succeeds hp
    | error f =>
      simp only [Errand.workEnding, Step.within, Except.map, Execute.ran] at h
      split_ifs at h
      · cases h; exact .rejects hp
      · cases h; exact .gives hp f
  case retiring i r =>
    rcases h.of_within with ⟨r', hr, rfl⟩ | ⟨st, a, hr, h⟩
    · exact .retires hp (goes_of_retire hr)
    · cases h
      exact .retired hp (goes_of_retire hr) _
  case pausing deadline =>
    split_ifs at h
    · cases h; exact .restarts hp
    · cases h

/-! ## Stopping backends -/

/-- What a step of stopping instances can do: one of them goes on, or all are done. -/
inductive StopAll.Goes (w : Surroundings) (p : Pool) : StopAll → Pool → Task StopAll Unit → Prop where
  | stops {before after : StopAll} {i : Nat} {s s' : Instance.Shutdown} {x y : Instance}
      (hx : p.instance? i = some x) (hs : (s.step w.exited w.now x).Becomes y (.running s')) :
      Goes w p (before ++ (i, s) :: after) (p.setInstance i y)
        (.running (before ++ (i, s') :: after))
  | stopped {before after : StopAll} {i : Nat} {s : Instance.Shutdown} {x y : Instance}
      (hx : p.instance? i = some x) (hs : (s.step w.exited w.now x).Becomes y (.ended ())) :
      Goes w p (before ++ (i, s) :: after) (p.setInstance i y) (.running (before ++ after))
  | ends : Goes w p [] p (.ended ())

theorem goes_of_stepFrom (before : StopAll) {u : Option Time} {todo : StopAll}
    {t : Task StopAll Unit} (h : (StopAll.stepFrom w p before u todo).Becomes q t) :
    StopAll.Goes w p (before ++ todo) q t := by
  induction todo generalizing before u with
  | nil =>
    unfold StopAll.stepFrom at h
    split_ifs at h with hb
    · cases h
      rw [List.isEmpty_iff.mp hb]
      exact .ends
    · cases h
  | cons e todo ih =>
    obtain ⟨i, s⟩ := e
    unfold StopAll.stepFrom at h
    split at h <;> rename_i heq
    · have htodo := ih _ h
      rwa [List.append_assoc] at htodo
    · cases h
      obtain ⟨x, y, hx, hs, rfl⟩ := (Step.Becomes.of_next heq).of_onInstance
      exact .stops hx hs
    · cases h
      obtain ⟨x, y, hx, hs, rfl⟩ := (Step.Becomes.of_later heq).of_onInstance
      exact .stops hx hs
    · cases h
      obtain ⟨x, y, hx, hs, rfl⟩ := (Step.Becomes.of_done heq).of_onInstance
      exact .stopped hx hs

/-- No document of an instance is open. -/
def Pool.Unused (p : Pool) (i : Nat) : Prop := ∀ x, p.instance? i = some x → x.documents = []

/-- What has been found once the documents of the instance are counted that is asked. -/
def Stop.Search.Counts (x : Search) (p : Pool) (found : List (Command × Nat)) : Prop :=
  found = x.found ++ [(x.command, x.index)] ∧ p.Unused x.index ∨ found = x.found

/-- What a step of stopping some backends can do. -/
inductive Stop.Goes (w : Surroundings) (p : Pool) (s : Stop) : Pool → Task Stop Nat → Prop where
  | takes {c : Command} (hp : s.phase = .begin) (hc : s.choice = .command c) (hh : p.held = false)
      (count : Nat) :
      Goes w p s (p.clearSlot c) (.running { s with
        count := count, phase := .stopping (.ofIndices ((p.slot? c).bind Slot.index?).toList) })
  | takesAll (hp : s.phase = .begin) (hc : s.choice = .all) (hh : p.held = false) (count : Nat) :
      Goes w p s { p with slots := [] } (.running { s with
        count := count
        phase := .stopping (.ofIndices (p.slots.filterMap fun e => e.2.index?)) })
  | holds {age : Duration} {c : Command} {i used : Nat} {rest : List (Command × Slot)}
      (hp : s.phase = .begin) (hc : s.choice = .idle age) (hh : p.held = false)
      (hrest : ((c, Slot.ready i used) :: rest).Sublist p.slots)
      (hage : age.nanos < p.uptime - used) :
      Goes w p s { p with held := true } (.running { s with
        phase := .asking ⟨age, c, i, rest, []⟩ })
  | takesNone {age : Duration} (hp : s.phase = .begin) (hc : s.choice = .idle age)
      (hh : p.held = false) :
      Goes w p s p (.running { s with count := 0, phase := .stopping [] })
  | asks {x : Search} {found : List (Command × Nat)} {c : Command} {i used : Nat}
      {rest : List (Command × Slot)} (hp : s.phase = .asking x) (hf : x.Counts p found)
      (hrest : ((c, Slot.ready i used) :: rest).Sublist x.rest)
      (hage : x.age.nanos < p.uptime - used) :
      Goes w p s { p with held := true } (.running { s with
        phase := .asking ⟨x.age, c, i, rest, found⟩ })
  | takesFound {x : Search} {found : List (Command × Nat)} (hp : s.phase = .asking x)
      (hf : x.Counts p found) :
      Goes w p s ({ p with held := false }.clearAll found) (.running { s with
        count := (found.map (·.2)).length, phase := .stopping (.ofIndices (found.map (·.2))) })
  | stops {q : Pool} {rest rest' : StopAll} (hp : s.phase = .stopping rest)
      (hr : rest.Goes w p q (.running rest')) :
      Goes w p s q (.running { s with phase := .stopping rest' })
  | ends {q : Pool} {rest : StopAll} (hp : s.phase = .stopping rest)
      (hr : rest.Goes w p q (.ended ())) :
      Goes w p s q (.ended s.count)

/-- A search goes on with an idle slot among those it has not looked at, or is over. -/
theorem Stop.seek_cases (p : Pool) (s : Stop) (age : Duration) (found : List (Command × Nat))
    (slots : List (Command × Slot)) :
    (∃ c i used rest, ((c, Slot.ready i used) :: rest).Sublist slots ∧
      age.nanos < p.uptime - used ∧ seek p s age found slots =
        .next { p with held := true } { s with phase := .asking ⟨age, c, i, rest, found⟩ }) ∨
      seek p s age found slots = .next ({ p with held := false }.clearAll found) { s with
        count := (found.map (·.2)).length, phase := .stopping (.ofIndices (found.map (·.2))) } := by
  induction slots with
  | nil => exact .inr rfl
  | cons e slots ih =>
    obtain ⟨c, slot⟩ := e
    rw [seek]
    split
    · rename_i i hi
      cases slot with
      | initializing j => cases hi
      | ready k used =>
        simp only [idleIndex?] at hi
        split_ifs at hi with hage
        cases hi
        exact .inl ⟨c, i, used, slots, .refl _, hage, rfl⟩
    · exact ih.imp_left fun ⟨d, k, used, rest, hrest, h⟩ => ⟨d, k, used, rest, hrest.cons _, h⟩

theorem goes_of_stop {s : Stop} {t : Task Stop Nat} (h : (s.step w p).Becomes q t) :
    s.Goes w p q t := by
  unfold Stop.step at h
  split at h <;> rename_i hp
  · split_ifs at h with hh
    · cases h
    · have hh : p.held = false := Bool.eq_false_iff.mpr hh
      split at h <;> rename_i hc
      · cases h; exact .takes hp hc hh _
      · cases h; exact .takesAll hp hc hh _
      · rename_i age
        obtain ⟨c, i, used, rest, hrest, hage, hs⟩ | hs := Stop.seek_cases p s age [] p.slots
        · rw [hs] at h
          cases h
          exact .holds hp hc hh hrest hage
        · have hp' : { p with held := false } = p := by rw [← hh]
          rw [hs, hp'] at h
          cases h
          exact .takesNone hp hc hh
  · rename_i x
    simp only at h
    generalize hfound : (if ((p.instance? x.index).map (·.documents.isEmpty)).getD true = true then
      x.found ++ [(x.command, x.index)] else x.found) = found at h
    have hf : x.Counts p found := by
      rw [← hfound]
      split_ifs with hu
      · refine .inl ⟨rfl, fun y hy => ?_⟩
        simpa [hy] using hu
      · exact .inr rfl
    obtain ⟨c, i, used, rest, hrest, hage, hs⟩ | hs := Stop.seek_cases p s x.age found x.rest
    · rw [hs] at h
      cases h
      exact .asks hp hf hrest hage
    · rw [hs] at h
      cases h
      exact .takesFound hp hf
  · rcases h.of_within with ⟨rest', hr, rfl⟩ | ⟨st, a, hr, h⟩
    · exact .stops hp (goes_of_stepFrom [] hr)
    · cases h
      exact .ends hp (goes_of_stepFrom [] hr)

/-! ## Errands and events -/

/-- What a step of a visitor's errand can do, and how the visitor fares then. -/
inductive Errand.Goes (w : Surroundings) (p q : Pool) : Errand → Visitor.State → Prop where
  | ready {e e' : Ensure} (he : e.Goes w p q (.running e')) :
      Goes w p q (.ready e) (.busy (.ready e'))
  | readied {e : Ensure} {r : StartResult} (he : e.Goes w p q (.ended r)) :
      Goes w p q (.ready e) (.done (.served r))
  | work {x x' : Execute Nat} (hx : x.Goes w p q (.running x')) :
      Goes w p q (.work x) (.busy (.work x'))
  | worked {x : Execute Nat} {r : StartResult} (hx : x.Goes w p q (.ended r)) :
      Goes w p q (.work x) (.done (.served r))
  | stop {s s' : Stop} (hs : s.Goes w p q (.running s')) :
      Goes w p q (.stop s) (.busy (.stop s'))
  | stopped {s : Stop} {n : Nat} (hs : s.Goes w p q (.ended n)) :
      Goes w p q (.stop s) (.done (.stopped n))

theorem goes_of_errand {e e' : Errand} {v : Except Fault Unit}
    (h : (e.step w v p).Becomes q (.running e')) : e.Goes w p q (.busy e') := by
  cases e with
  | ready e =>
    rcases h.of_within with ⟨e', he, ht⟩ | ⟨st, r, he, h⟩
    · cases ht
      exact .ready (goes_of_ensure he)
    · cases h
  | work x =>
    rcases h.of_within with ⟨x', hx, ht⟩ | ⟨st, r, hx, h⟩
    · cases ht
      exact .work (goes_of_execute hx)
    · cases h
  | stop s =>
    rcases h.of_within with ⟨s', hs, ht⟩ | ⟨st, n, hs, h⟩
    · cases ht
      exact .stop (goes_of_stop hs)
    · cases h

theorem ends_of_errand {e : Errand} {r : Reply} {v : Except Fault Unit}
    (h : (e.step w v p).Becomes q (.ended r)) : e.Goes w p q (.done r) := by
  cases e with
  | ready e =>
    rcases h.of_within with ⟨e', he, ht⟩ | ⟨st, r, he, h⟩
    · cases ht
    · cases h
      exact .readied (goes_of_ensure he)
  | work x =>
    rcases h.of_within with ⟨x', hx, ht⟩ | ⟨st, r, hx, h⟩
    · cases ht
    · cases h
      exact .worked (goes_of_execute hx)
  | stop s =>
    rcases h.of_within with ⟨s', hs, ht⟩ | ⟨st, n, hs, h⟩
    · cases ht
    · cases h
      exact .stopped (goes_of_stop hs)

namespace Depot

/-- What an event can do. -/
inductive Happens (s : Depot) : Event → Depot → Prop where
  | elapses (d n : Nat) :
      Happens s (.elapse d n)
        { s with now := s.now + d, pool := { s.pool with uptime := s.pool.uptime + n } }
  | lands {l : Nat} (o : LaunchOutcome) (hl : s.pool.launchOutcome? l = none) :
      Happens s (.land l o) { s with pool := s.pool.resolveLaunch l o }
  | rests {n : Nat} (exited : Nat → Bool) (hr : StartJob.Rests s.pool n) :
      Happens s (.start n exited) s
  | starts {n : Nat} {exited : Nat → Bool} {j j' : StartJob} {q : Pool}
      (hj : s.pool.start? n = some j)
      (hg : j.Goes (s.surroundings exited) s.pool n q j') :
      Happens s (.start n exited) { s with pool := q.setStart n j' }
  | visits (wish : Wish) :
      Happens s (.visit wish) { s with visitors := s.visitors ++ [⟨wish, .busy wish.errand⟩] }
  | goes {n : Nat} {exited : Nat → Bool} {verdict : Except Fault Unit} {v : Visitor}
      {e : Errand} {q : Pool} {state : Visitor.State} (hv : s.visitors[n]? = some v)
      (hb : v.state = .busy e) (hg : e.Goes (s.surroundings exited) s.pool q state) :
      Happens s (.go n exited verdict) ({ s with pool := q }.setVisitor n v state)
  | givesUp {n : Nat} {v : Visitor} {e : Errand} (hv : s.visitors[n]? = some v)
      (hb : v.state = .busy e) :
      Happens s (.giveUp n) ({ s with pool := letGo s.pool e }.setVisitor n v (.gone e))
  | besides {i : Nat} {x y : Instance} {event : Scene.Event} {scenes : List (Nat × Scene)}
      (hx : s.pool.instance? i = some x) (hy : x.Endures y) :
      Happens s (.beside i event) { s with pool := s.pool.setInstance i y, scenes := scenes }

variable {s s' : Depot} {e : Event}

theorem start_sceneOf (s : Depot) (i : Nat) (x : Instance) : (s.sceneOf i x).start = .abandoned := by
  unfold sceneOf
  split <;> rfl

theorem client_sceneOf (s : Depot) (i : Nat) (x : Instance) : (s.sceneOf i x).client = x := by
  unfold sceneOf
  split <;> rfl

/-- **Events.** An event does one of the things that `Happens` lists. -/
theorem happens_of_act (h : s.act e = some s') : s.Happens e s' := by
  cases e with
  | elapse d n =>
    cases h
    exact .elapses d n
  | land l o =>
    simp only [act] at h
    split at h <;> rename_i hl
    · cases h
      refine .lands o ?_
      rw [Pool.launchOutcome?, hl]
      rfl
    · cases h
  | start n exited =>
    have hgo : ∀ {q t}, (StartJob.step (s.surroundings exited) s.pool n).Becomes q t →
        s.Happens (.start n exited) { s with pool := q } := by
      intro q t hs
      rcases goes_of_start hs with ⟨rfl, hr⟩ | ⟨j, q₀, j', hj, hg, rfl⟩
      · exact .rests exited hr
      · exact .starts hj hg
    simp only [act] at h
    split at h <;> rename_i heq <;> cases h
    · exact hgo (.of_next heq)
    · exact hgo (.of_later heq)
    · exact hgo (.of_done heq)
  | visit wish =>
    cases h
    exact .visits wish
  | go n exited verdict =>
    simp only [act, Option.bind_eq_bind, Option.bind_eq_some_iff] at h
    obtain ⟨v, hv, h⟩ := h
    split at h
    · rename_i errand hb
      split at h <;> rename_i heq <;> cases h
      · exact .goes hv hb (goes_of_errand (.of_next heq))
      · exact .goes hv hb (goes_of_errand (.of_later heq))
      · exact .goes hv hb (ends_of_errand (.of_done heq))
    · cases h
  | giveUp n =>
    simp only [act, Option.bind_eq_bind, Option.bind_eq_some_iff] at h
    obtain ⟨v, hv, h⟩ := h
    split at h
    · rename_i errand hb
      cases h
      exact .givesUp hv hb
    · cases h
  | beside i event =>
    simp only [act, Option.bind_eq_bind, Option.bind_eq_some_iff] at h
    obtain ⟨x, hx, t, ht, h⟩ := h
    cases h
    refine .besides hx ?_
    have hend := Scene.endures_act (Scene.ne_start_of_act (start_sceneOf s i x) ht) ht
    rwa [client_sceneOf] at hend

end Depot

end DiagnosticBroker
