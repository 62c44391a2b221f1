import DiagnosticBroker.Proofs.Pool.Custody

/-!
# What starts have done

A start keeps only how far it is. Its `Record` is what it has done until then: how many launches it
has asked for, which instances it has made, and what came of its attempts. Records are kept beside a
run of a depot, and nothing that happens looks at them.

Results:
* `Fits.goes`: how far a start is fits its record.
* `logged_of_recorded`: so it does in every run, and what a start has made nobody else has.
* `terminated_of_logged`: a start that goes to its next launch has terminated what it made before.
-/

namespace DiagnosticBroker

open Pool (Grows)

variable {w : Surroundings} {p q : Pool} {n : Nat} {j j' : StartJob}

/-- The result of an operation that is over. -/
def Task.result? {ρ α : Type} : Task ρ α → Option α
  | .ended a => some a
  | _ => none

namespace StartJob

/-! ## Records -/

/-- What a start has done. -/
structure Record where
  /-- How many launches it has asked for. -/
  launches : Nat := 0
  /-- The instances that it has made. -/
  instances : List Nat := []
  /-- What came of its attempts: why a launch failed, or how the start of an instance ended. -/
  outcomes : List (Except Fault Unit) := []

/-- What comes of an attempt in the next step of a start, if that step shows it. -/
def outcome? (w : Surroundings) (p : Pool) (j : StartJob) : Option (Except Fault Unit) :=
  match j.phase with
  | .launching _ l =>
    match p.launchOutcome? l with
    | some (.refused f) => some (.error f)
    | _ => none
  | .starting _ i s =>
    match p.onInstance i (s.step w.now) with
    | .done _ o => some o
    | _ => none
  | _ => none

/-- Whether an attempt failed in a way that another one may mend. -/
def isMendable : Except Fault Unit → Bool
  | .error f => f.isRecoverable
  | .ok () => false

namespace Record

variable {r : Record}

/-- The record after a step of the start that led from one pool to another. -/
def after (r : Record) (w : Surroundings) (p : Pool) (j : StartJob) (q : Pool) : Record where
  launches := r.launches + (q.launches.length - p.launches.length)
  instances := r.instances ++
    List.range' p.instances.length (q.instances.length - p.instances.length)
  outcomes := r.outcomes ++ (j.outcome? w p).toList

theorem after_quiet (hl : q.launches.length = p.launches.length)
    (hi : q.instances.length = p.instances.length) (ho : j.outcome? w p = none) :
    r.after w p j q = r := by
  simp [after, hl, hi, ho]

theorem after_launch (hl : q.launches.length = p.launches.length + 1)
    (hi : q.instances.length = p.instances.length) (ho : j.outcome? w p = none) :
    r.after w p j q = { r with launches := r.launches + 1 } := by
  simp [after, hl, hi, ho]

theorem after_connect (hl : q.launches.length = p.launches.length)
    (hi : q.instances.length = p.instances.length + 1) (ho : j.outcome? w p = none) :
    r.after w p j q = { r with instances := r.instances ++ [p.instances.length] } := by
  simp [after, hl, hi, ho]

theorem after_outcome {o : Except Fault Unit} (hl : q.launches.length = p.launches.length)
    (hi : q.instances.length = p.instances.length) (ho : j.outcome? w p = some o) :
    r.after w p j q = { r with outcomes := r.outcomes ++ [o] } := by
  simp [after, hl, hi, ho]

/-- A number of attempts failed, and another one might have mended each of them. -/
def Failed (r : Record) (k : Nat) : Prop :=
  r.outcomes.length = k ∧ ∀ o ∈ r.outcomes, isMendable o = true

/-- There was an attempt for each launch. All but the last failed and might have been mended, and
the last came to `o`. -/
def Ended (r : Record) (o : Except Fault Unit) : Prop :=
  ∃ before, r.outcomes = before ++ [o] ∧ r.launches = before.length + 1 ∧
    ∀ o ∈ before, isMendable o = true

theorem Failed.ended {k : Nat} (h : r.Failed k) (hl : r.launches = k + 1)
    (o : Except Fault Unit) : Record.Ended { r with outcomes := r.outcomes ++ [o] } o :=
  ⟨r.outcomes, rfl, by rw [h.1]; exact hl, h.2⟩

theorem Ended.failed {o : Except Fault Unit} (h : r.Ended o) (ho : isMendable o = true) :
    r.Failed r.launches := by
  obtain ⟨before, heq, hl, hall⟩ := h
  refine ⟨by simp [heq, hl], fun o' ho' => ?_⟩
  rw [heq] at ho'
  rcases List.mem_append.mp ho' with h | h
  · exact hall o' h
  · rwa [List.mem_singleton.mp h]

theorem Ended.mem {o : Except Fault Unit} (h : r.Ended o) : o ∈ r.outcomes := by
  obtain ⟨before, heq, -, -⟩ := h
  simp [heq]

end Record

/-! ## How far a start is -/

/-- What a start comes to fits what came of its attempts. -/
def Settles (j : StartJob) (r : Record) : StartResult → Prop
  | .ok i => r.Ended (.ok ()) ∧ r.launches ≤ j.policy.maxAttempts ∧ r.instances.getLast? = some i
  | .error f =>
    r.Ended (.error f) ∧ f.isRecoverable = false ∧ r.launches ≤ j.policy.maxAttempts ∨
      f = .unresponsive j.backend.command.text j.policy.maxAttempts ∧
        r.Failed j.policy.maxAttempts ∧ r.launches = j.policy.maxAttempts

/-- How far a start is fits its record. -/
def Fits (j : StartJob) (r : Record) : Prop :=
  match j.phase with
  | .begin => r = {}
  | .launching k _ => r.Failed k ∧ r.launches = k + 1 ∧ k < j.policy.maxAttempts
  | .starting k i _ => r.Failed k ∧ r.launches = k + 1 ∧ k < j.policy.maxAttempts ∧
      r.instances.getLast? = some i
  | .stopping k _ _ f => r.Ended (.error f) ∧ r.launches = k + 1 ∧ k < j.policy.maxAttempts
  | .pausing k _ => r.Failed k ∧ r.launches = k ∧ k < j.policy.maxAttempts
  | .marking => r.Failed j.policy.maxAttempts ∧ r.launches = j.policy.maxAttempts
  | .settling o => j.Settles r o
  | .over o => j.Settles r o
  | .crashed _ => ∃ k, r.Failed k ∧ r.launches = k + 1 ∧ k < j.policy.maxAttempts
  | .cleared _ => ∃ k, r.Failed k ∧ r.launches = k + 1 ∧ k < j.policy.maxAttempts

variable {r : Record}

theorem fits_afterFailure {now : Time} {k : Nat} {f : Fault} (hr : r.Ended (.error f))
    (hl : r.launches = k + 1) (hk : k < j.policy.maxAttempts) :
    (afterFailure now j k f).Fits r := by
  unfold afterFailure Backoff.next
  by_cases hf : f.isRecoverable = true
  · have hfailed : r.Failed (k + 1) := hl ▸ hr.failed hf
    by_cases hlast : k + 1 < j.policy.maxAttempts
    · rw [if_pos (by simp [hf, hlast])]
      exact ⟨hfailed, hl, hlast⟩
    · have hall : k + 1 = j.policy.maxAttempts := by omega
      rw [if_neg (by simp [hlast])]
      simp only [hf, if_true]
      rw [hall] at hfailed hl
      exact ⟨hfailed, hl⟩
  · rw [if_neg (by simp [hf])]
    simp only [hf]
    refine .inl ⟨hr, Bool.eq_false_iff.mpr hf, ?_⟩
    change r.launches ≤ j.policy.maxAttempts
    omega

theorem launches_settle (p : Pool) (j : StartJob) (r : StartResult) :
    (settle p j r).1.launches = p.launches := by
  cases r <;> rfl

theorem launches_clear (p : Pool) (n : Nat) (j : StartJob) (cause : String) :
    (clear p n j cause).1.launches = p.launches := by
  simp only [clear]
  split_ifs <;> rfl

theorem outcome?_starting {k i : Nat} {s : Instance.Start} {x y : Instance}
    {t : Task Instance.Start (Except Fault Unit)} (hp : j.phase = .starting k i s)
    (hx : p.instance? i = some x) (hs : (s.step w.now x).Becomes y t) :
    j.outcome? w p = t.result? := by
  simp only [outcome?, hp, Pool.onInstance, hx]
  generalize s.step w.now x = step at hs
  cases hs <;> rfl

/-- The record after a step of the start of an instance. -/
theorem Record.after_handshake {k i : Nat} {s : Instance.Start} {x y : Instance}
    {t : Task Instance.Start (Except Fault Unit)} (hp : j.phase = .starting k i s)
    (hx : p.instance? i = some x) (hs : (s.step w.now x).Becomes y t) :
    r.after w p j (p.setInstance i y) =
      { r with outcomes := r.outcomes ++ t.result?.toList } := by
  have hlength : (p.setInstance i y).instances.length = p.instances.length := by
    simp [Pool.setInstance]
  rw [after, outcome?_starting hp hx hs, hlength]
  simp [Pool.setInstance]

theorem outcome?_of_quiet (h₁ : ∀ {k l}, j.phase ≠ .launching k l)
    (h₂ : ∀ {k i s}, j.phase ≠ .starting k i s) : j.outcome? w p = none := by
  unfold outcome?
  split
  · exact absurd ‹_› h₁
  · exact absurd ‹_› h₂
  · rfl

/-- The record after a step at whose beginning no attempt was under way. -/
theorem Record.after_between (hl : q.launches = p.launches)
    (hi : q.instances.length = p.instances.length) (h₁ : ∀ {k l}, j.phase ≠ .launching k l)
    (h₂ : ∀ {k i s}, j.phase ≠ .starting k i s) : r.after w p j q = r :=
  after_quiet (by rw [hl]) hi (outcome?_of_quiet h₁ h₂)

/-- The record after a launch that failed. -/
theorem Record.after_refused {k l : Nat} {f : Fault} (hp : j.phase = .launching k l)
    (hl : p.launchOutcome? l = some (.refused f)) :
    r.after w p j p = { r with outcomes := r.outcomes ++ [.error f] } :=
  after_outcome rfl rfl (by simp [outcome?, hp, hl])

/-- The record after a step of the shutdown of an instance. -/
theorem Record.after_stopping {k i : Nat} {s : Instance.Shutdown} {f : Fault}
    (hp : j.phase = .stopping k i s f) (y : Instance) : r.after w p j (p.setInstance i y) = r :=
  after_between rfl (by simp [Pool.setInstance]) (by simp [hp]) (by simp [hp])

/-- The record after a command was marked as unavailable. -/
theorem Record.after_marking (hp : j.phase = .marking) (commands : List Command) :
    r.after w p j { p with unavailable := commands } = r :=
  after_between rfl rfl (by simp [hp]) (by simp [hp])

theorem one_le_startAttempts (b : Budget) : 1 ≤ b.startAttempts := by
  have hmax : 1 ≤ Word.maxU32 := by decide
  unfold Budget.startAttempts
  split_ifs
  · exact Nat.le_min.mpr ⟨Nat.le_add_left .., hmax⟩
  · exact Nat.le_refl 1

/-- The attempts of a start that begins now. -/
theorem one_le_policy (p : Pool) (c : Command) :
    1 ≤ (if c ∈ p.unavailable then Backoff.once else p.budget.startBackoff).maxAttempts := by
  split_ifs
  · exact Nat.le_refl 1
  · exact one_le_startAttempts p.budget

/-- **Attempts.** How far a start is fits its record again after a step. -/
theorem Fits.goes (h : j.Fits r) (hg : j.Goes w p n q j') : j'.Fits (r.after w p j q) := by
  unfold Fits at h
  cases hg with
  | begins hp =>
    simp only [hp] at h
    subst h
    have hafter : Record.after {} w p j (decide w.now p j).1 = { launches := 1 } :=
      Record.after_launch (by simp [decide, beginAttempt, Pool.launch]) rfl
        (outcome?_of_quiet (by simp [hp]) (by simp [hp]))
    rw [hafter]
    exact ⟨⟨rfl, by simp⟩, rfl, one_le_policy p j.backend.command⟩
  | connects hp hl =>
    simp only [hp] at h
    obtain ⟨hfailed, hlaunch, hk⟩ := h
    have hafter : r.after w p j (p.addInstance j.backend).1 =
        { r with instances := r.instances ++ [p.instances.length] } :=
      Record.after_connect rfl (by simp [Pool.addInstance]) (by simp [outcome?, hp, hl])
    rw [hafter]
    exact ⟨hfailed, hlaunch, hk, List.getLast?_concat⟩
  | refused hp f hl =>
    simp only [hp] at h
    obtain ⟨hfailed, hlaunch, hk⟩ := h
    rw [Record.after_refused hp hl]
    exact fits_afterFailure (hfailed.ended hlaunch _) hlaunch hk
  | crashes hp task words hl =>
    simp only [hp] at h
    have hafter : r.after w p j p = r := Record.after_quiet rfl rfl (by simp [outcome?, hp, hl])
    rw [hafter]
    exact ⟨_, h⟩
  | starts hp hx hs =>
    simp only [hp] at h
    have hafter := Record.after_handshake (r := r) hp hx hs
    simp only [Task.result?, Option.toList_none, List.append_nil] at hafter
    rw [hafter]
    exact h
  | succeeds hp hx hs =>
    simp only [hp] at h
    obtain ⟨hfailed, hlaunch, hk, hlast⟩ := h
    rw [Record.after_handshake hp hx hs]
    exact ⟨hfailed.ended hlaunch _, hlaunch ▸ hk, hlast⟩
  | fails hp hx hs =>
    simp only [hp] at h
    obtain ⟨hfailed, hlaunch, hk, -⟩ := h
    rw [Record.after_handshake hp hx hs]
    exact ⟨hfailed.ended hlaunch _, hlaunch, hk⟩
  | stops hp hx hs =>
    simp only [hp] at h
    rw [Record.after_stopping hp]
    exact h
  | stopped hp hx hs =>
    simp only [hp] at h
    obtain ⟨hended, hlaunch, hk⟩ := h
    rw [Record.after_stopping hp]
    exact fits_afterFailure hended hlaunch hk
  | @resumes k deadline hp =>
    simp only [hp] at h
    obtain ⟨hfailed, hlaunch, hk⟩ := h
    have hafter : r.after w p j (beginAttempt w.now p j k).1 =
        { r with launches := r.launches + 1 } :=
      Record.after_launch (by simp [beginAttempt, Pool.launch]) rfl
        (outcome?_of_quiet (by simp [hp]) (by simp [hp]))
    rw [hafter]
    exact ⟨hfailed, congrArg (· + 1) hlaunch, hk⟩
  | marks hp =>
    simp only [hp] at h
    rw [Record.after_marking hp]
    exact .inr ⟨rfl, h⟩
  | settles hp hh =>
    simp only [hp] at h
    rw [Record.after_between (launches_settle ..) (by rw [instances_settle]) (by simp [hp])
      (by simp [hp])]
    exact h
  | clears hp hh =>
    simp only [hp] at h
    rw [Record.after_between (launches_clear ..) (by rw [instances_clear]) (by simp [hp])
      (by simp [hp])]
    exact h

/-! ## What a record tells -/

/-- Every attempt but the last left room for another one, and there is a launch for each. -/
theorem Fits.tells (h : j.Fits r) :
    r.launches ≤ j.policy.maxAttempts ∧
      ((∀ o ∈ r.outcomes, isMendable o = true) ∨ ∃ o, r.Ended o) := by
  have hsettles : ∀ {o}, j.Settles r o → r.launches ≤ j.policy.maxAttempts ∧
      ((∀ o ∈ r.outcomes, isMendable o = true) ∨ ∃ o, r.Ended o) := by
    intro o ho
    cases o with
    | ok i => exact ⟨ho.2.1, .inr ⟨_, ho.1⟩⟩
    | error f =>
      rcases ho with ⟨hended, -, hle⟩ | ⟨-, hfailed, heq⟩
      · exact ⟨hle, .inr ⟨_, hended⟩⟩
      · exact ⟨Nat.le_of_eq heq, .inl hfailed.2⟩
  unfold Fits at h
  cases hp : j.phase <;> simp only [hp] at h
  case begin =>
    subst h
    exact ⟨Nat.zero_le _, .inl (by simp)⟩
  case launching | starting => exact ⟨by omega, .inl h.1.2⟩
  case stopping => exact ⟨by omega, .inr ⟨_, h.1⟩⟩
  case pausing => exact ⟨by omega, .inl h.1.2⟩
  case marking => exact ⟨Nat.le_of_eq h.2, .inl h.1.2⟩
  case settling => exact hsettles h
  case «over» => exact hsettles h
  case crashed | cleared =>
    obtain ⟨k, hfailed, hlaunch, hk⟩ := h
    exact ⟨by omega, .inl hfailed.2⟩

/-- An attempt that leaves no room for another one is the last one. -/
theorem Record.Ended.launches_eq {o o' : Except Fault Unit} {i : Nat} (h : r.Ended o)
    (ho : r.outcomes[i]? = some o') (hm : isMendable o' = false) :
    r.launches = i + 1 ∧ o' = o := by
  obtain ⟨before, heq, hlaunch, hall⟩ := h
  rw [heq, List.getElem?_append] at ho
  split_ifs at ho with hi
  · rw [hall o' (List.mem_of_getElem? ho)] at hm
    cases hm
  · rw [List.getElem?_singleton] at ho
    split_ifs at ho with hzero
    cases ho
    exact ⟨by omega, rfl⟩

theorem Fits.launches_eq {o : Except Fault Unit} {i : Nat} (h : j.Fits r)
    (ho : r.outcomes[i]? = some o) (hm : isMendable o = false) : r.launches = i + 1 := by
  rcases h.tells.2 with hall | ⟨o', hended⟩
  · rw [hall o (List.mem_of_getElem? ho)] at hm
    cases hm
  · exact (hended.launches_eq ho hm).1

theorem Fits.settles {o : StartResult} (h : j.Fits r) (hp : j.phase = .over o) : j.Settles r o := by
  simp only [Fits, hp] at h
  exact h

theorem Settles.length_eq {o : StartResult} (h : j.Settles r o) : r.outcomes.length = r.launches := by
  have hlength : ∀ {o}, r.Ended o → r.outcomes.length = r.launches := by
    rintro o ⟨before, heq, hlaunch, -⟩
    simp [heq, hlaunch]
  cases o with
  | ok i => exact hlength h.1
  | error f =>
    rcases h with ⟨hended, -, -⟩ | ⟨-, hfailed, heq⟩
    · exact hlength hended
    · rw [hfailed.1, heq]

/-- A start returns what came of an attempt that left no room for another one. -/
theorem Settles.eq_map {o : StartResult} {o' : Except Fault Unit} (h : j.Settles r o)
    (ho : o' ∈ r.outcomes) (hm : isMendable o' = false) : o' = o.map fun _ => () := by
  obtain ⟨i, hi⟩ := List.mem_iff_getElem?.mp ho
  cases o with
  | ok k => exact (h.1.launches_eq hi hm).2
  | error f =>
    rcases h with ⟨hended, -, -⟩ | ⟨-, hfailed, -⟩
    · exact (hended.launches_eq hi hm).2
    · rw [hfailed.2 o' ho] at hm
      cases hm

/-- The fault of a start that has used up its attempts. -/
def ownFault (j : StartJob) (attempts : Nat) : Fault :=
  .unresponsive j.backend.command.text attempts

/-- A start reports that its attempts are used up if and only if they all left room for another
one. -/
theorem Settles.own_iff {o : StartResult} {m : Nat} (h : j.Settles r o) :
    o = .error (j.ownFault m) ∧ .error (j.ownFault m) ∉ r.outcomes ↔
      r.launches = m ∧ ∀ o ∈ r.outcomes, isMendable o = true := by
  constructor
  · rintro ⟨rfl, hnot⟩
    rcases h with ⟨hended, -, -⟩ | ⟨heq, hfailed, hlaunch⟩
    · exact absurd hended.mem hnot
    · cases heq
      exact ⟨hlaunch, hfailed.2⟩
  · rintro ⟨hlaunch, hall⟩
    cases o with
    | ok i => cases hall _ h.1.mem
    | error f =>
      rcases h with ⟨hended, hf, -⟩ | ⟨hf, hfailed, heq⟩
      · have hmendable : f.isRecoverable = true := hall _ hended.mem
        rw [hf] at hmendable
        cases hmendable
      · rw [hf, ← heq, hlaunch]
        exact ⟨rfl, fun hin => by cases hall _ hin⟩

end StartJob

/-! ## Visitors -/

/-- No visitor changes which commands have used up their attempts. -/
theorem Retire.Goes.unavailable {c : Command} {i : Nat} {r : Retire} {t : Task Retire Unit}
    (h : r.Goes w p c i q t) : q.unavailable = p.unavailable := by
  cases h with
  | removes hh =>
    rcases Pool.clearInstance_cases p c i with ⟨-, h⟩ | ⟨-, h⟩
    · rw [h]
      rfl
    · rw [h]
  | stops | stopped => rfl

theorem Ensure.Goes.unavailable {e : Ensure} {t : Task Ensure StartResult} (h : e.Goes w p q t) :
    q.unavailable = p.unavailable := by
  cases h with
  | retires hp hr | retired hp hr => exact hr.unavailable
  | _ => rfl

theorem Execute.Goes.unavailable {x : Execute Nat} {t : Task (Execute Nat) (Except Fault Nat)}
    (h : x.Goes w p q t) : q.unavailable = p.unavailable := by
  cases h with
  | ensures hp he | begins hp he | fails hp he => exact he.unavailable
  | retires hp hr | retired hp hr => exact hr.unavailable
  | _ => rfl

theorem StopAll.Goes.unavailable {s : StopAll} {t : Task StopAll Unit} (h : s.Goes w p q t) :
    q.unavailable = p.unavailable := by
  cases h <;> rfl

theorem Stop.Goes.unavailable {s : Stop} {t : Task Stop Nat} (h : s.Goes w p q t) :
    q.unavailable = p.unavailable := by
  cases h with
  | @takesFound _ found =>
    obtain ⟨slots, h⟩ := Pool.clearAll_eq found { p with held := false }
    rw [h]
  | stops hp hr | ends hp hr => exact hr.unavailable
  | _ => rfl

theorem Errand.Goes.unavailable {e : Errand} {state : Visitor.State} (h : e.Goes w p q state) :
    q.unavailable = p.unavailable := by
  cases h with
  | ready h | readied h | work h | worked h | stop h | stopped h => exact h.unavailable

open StartJob (Record)

namespace Depot

/-! ## Records of a run -/

variable {P : Depot → Event → Prop} {s s' : Depot} {e : Event} {r r' : Nat → Record}

/-- The records of all starts after an event that led from one depot to another. -/
def note (s : Depot) (e : Event) (s' : Depot) (r : Nat → Record) : Nat → Record :=
  match e with
  | .start n exited =>
    match s.pool.start? n with
    | some j => Function.update r n ((r n).after (s.surroundings exited) s.pool j s'.pool)
    | none => r
  | _ => r

/-- What can come of a pool that nobody has come to, with the records of its starts. -/
inductive Recorded (P : Depot → Event → Prop) : Depot → (Nat → Record) → Prop where
  | new (budget : Budget) (roots : List String) (directory : String) (isProcess : Bool)
      (clientProcess : Nat) :
      Recorded P (new budget roots directory isProcess clientProcess) fun _ => {}
  | step {s s' : Depot} {e : Event} {r : Nat → Record} (h : Recorded P s r) (he : P s e)
      (ha : s.act e = some s') : Recorded P s' (s.note e s' r)

theorem Recorded.reachable (h : Recorded P s r) : Reachable P s := by
  induction h with
  | new budget roots directory isProcess clientProcess => exact ⟨_, _, _, _, _, .refl⟩
  | step _ he ha ih => exact ih.run (Run.refl.step he ha)

theorem Recorded.mono {Q : Depot → Event → Prop} (h : Recorded P s r)
    (hPQ : ∀ s e, P s e → Q s e) : Recorded Q s r := by
  induction h with
  | new budget roots directory isProcess clientProcess => exact .new ..
  | step _ he ha ih => exact ih.step (hPQ _ _ he) ha

/-- If nobody comes to shut backends down, no start loses its slot. -/
theorem Recorded.unevicted (h : Recorded P s r) (hP : ∀ s e, P s e → e.isShutdown = false) :
    Recorded (fun s e => ¬ s.Evicts e ∧ P s e) s r := by
  induction h with
  | new budget roots directory isProcess clientProcess => exact .new ..
  | step h he ha ih =>
    have hundisturbed := undisturbed_of_reachable (h.reachable.mono hP)
    exact ih.step ⟨not_evicts (orderly_of_reachable h.reachable) hundisturbed.wishes, he⟩ ha

/-- One event after the other, with the records. -/
def followNoting (s : Depot) (r : Nat → Record) : List Event → Option (Depot × (Nat → Record))
  | [] => some (s, r)
  | e :: es => (s.act e).bind fun s' => s'.followNoting (s.note e s' r) es

theorem Recorded.followNoting {es : List Event} (h : Recorded P s r)
    (hes : ∀ s, ∀ e ∈ es, P s e) (hf : s.followNoting r es = some (s', r')) :
    Recorded P s' r' := by
  induction es generalizing s r with
  | nil =>
    cases hf
    exact h
  | cons e es ih =>
    obtain ⟨s₁, ha, hf⟩ := Option.bind_eq_some_iff.mp hf
    have hfirst := h.step (hes s e (by simp)) ha
    exact ih hfirst (fun s e he => hes s e (by simp [he])) hf

/-- What an event does to starts, to the commands whose attempts are used up, and to records. -/
inductive Proceeds (s s' : Depot) (r r' : Nat → Record) : Prop where
  | keeps (hs : s'.pool.starts = s.pool.starts) (hu : s'.pool.unavailable = s.pool.unavailable)
      (hr : r' = r)
  | claims (b : Backend) (hb : s.pool.slot? b.command = none) (hp : s'.pool = s.pool.claim b)
      (hr : r' = r)
  | starts {n : Nat} {w : Surroundings} {j j' : StartJob} {q : Pool}
      (hj : s.pool.start? n = some j) (hg : j.Goes w s.pool n q j')
      (hp : s'.pool = q.setStart n j') (hr : r' = Function.update r n ((r n).after w s.pool j q))

/-- The next step of a start that is over shows nothing. -/
theorem note_of_rests {exited : Nat → Bool} (hn : StartJob.Rests s.pool n) :
    s.note (.start n exited) s r = r := by
  simp only [note]
  split <;> rename_i hj
  · have hover := hn _ hj
    have hquiet : StartJob.outcome? (s.surroundings exited) s.pool _ = none :=
      StartJob.outcome?_of_quiet (fun hp => by rw [StartJob.isUnderWay, hp] at hover; cases hover)
        (fun hp => by rw [StartJob.isUnderWay, hp] at hover; cases hover)
    rw [Record.after_quiet rfl rfl hquiet, Function.update_eq_self]
  · rfl

theorem unavailable_letGo (p : Pool) (d : Errand) : (letGo p d).unavailable = p.unavailable := by
  unfold letGo
  split <;> rfl

theorem proceeds_of_happens (h : s.Happens e s') : s.Proceeds s' r (s.note e s' r) := by
  cases h with
  | elapses | lands | visits | besides => exact .keeps rfl rfl rfl
  | rests exited hn => exact .keeps rfl rfl (note_of_rests hn)
  | givesUp hv hb => exact .keeps (starts_letGo ..) (unavailable_letGo ..) rfl
  | starts hj hg =>
    refine .starts hj hg rfl ?_
    simp only [note, hj]
    rfl
  | goes hv hb hg =>
    rcases hg.turn.thins_or_claims with ht | ⟨b, hslot, hq⟩
    · exact .keeps ht.starts hg.unavailable rfl
    · exact .claims b hslot hq rfl

/-- What records say is true: how far a start is fits its record, and what it has made nobody else
has. -/
structure Logged (s : Depot) (r : Nat → Record) : Prop where
  blank : ∀ {n}, s.pool.start? n = none → r n = {}
  fits : ∀ {n a}, s.pool.start? n = some a → a.Fits (r n)
  made : ∀ {n i}, i ∈ (r n).instances → ∃ x, s.pool.instance? i = some x
  apart : ∀ {n m i b}, i ∈ (r n).instances → s.pool.start? m = some b → b.index? = some i → m = n

theorem Logged.keeps (h : s.Logged r) (hg : Grows s.pool s'.pool)
    (hs : s'.pool.starts = s.pool.starts) : s'.Logged r where
  blank hn := h.blank ((Pool.start?_congr hs _).symm.trans hn)
  fits ha := h.fits ((Pool.start?_congr hs _).symm.trans ha)
  made hi := by
    obtain ⟨x, hx⟩ := h.made hi
    obtain ⟨y, hy, -⟩ := hg.instance? hx
    exact ⟨y, hy⟩
  apart hi ha := h.apart hi ((Pool.start?_congr hs _).symm.trans ha)

theorem Logged.claims (h : s.Logged r) (b : Backend) (hp : s'.pool = s.pool.claim b) :
    s'.Logged r := by
  refine ⟨fun {n} hn => h.blank ?_, fun {n a} ha => ?_, fun {n i} hi => ?_,
    fun {n m i a} hi ha hidx => ?_⟩
  · cases hold : s.pool.start? n with
    | none => rfl
    | some a =>
      rw [hp, (Pool.start?_claim s.pool b).mpr (.inl hold)] at hn
      cases hn
  · rw [hp] at ha
    rcases (Pool.start?_claim s.pool b).mp ha with hold | ⟨rfl, rfl⟩
    · exact h.fits hold
    · exact h.blank (List.getElem?_eq_none (Nat.le_refl _))
  · rw [hp]
    exact h.made hi
  · rw [hp] at ha
    rcases (Pool.start?_claim s.pool b).mp ha with hold | ⟨-, rfl⟩
    · exact h.apart hi hold hidx
    · cases hidx

theorem Logged.starts (h : s.Logged r) (hm : s.pool.Made) (hj : s.pool.start? n = some j)
    (hg : j.Goes w s.pool n q j') (hp : s'.pool = q.setStart n j') :
    s'.Logged (Function.update r n ((r n).after w s.pool j q)) := by
  have hstart := hg.start?_setStart hj
  have hgrows : Grows s.pool s'.pool := hp ▸ grows_start hj hg
  -- An instance of a record was in it before, or the start has made it now.
  have hcases : ∀ {k i}, i ∈ (Function.update r n ((r n).after w s.pool j q) k).instances →
      i ∈ (r k).instances ∨ k = n ∧ s.pool.instances.length ≤ i ∧ i < q.instances.length := by
    intro k i hi
    by_cases hk : k = n
    · subst hk
      rw [Function.update_self] at hi
      rcases List.mem_append.mp hi with hi | hi
      · exact .inl hi
      · have hrange := List.mem_range'_1.mp hi
        exact .inr ⟨rfl, by omega, by omega⟩
    · rw [Function.update_of_ne hk] at hi
      exact .inl hi
  have hlt : ∀ {i x}, s.pool.instance? i = some x → i < s.pool.instances.length := fun hx =>
    (List.getElem?_eq_some_iff.mp hx).1
  refine ⟨fun {k} hk => ?_, fun {k a} ha => ?_, fun {k i} hi => ?_, fun {k m i b} hi hb hidx => ?_⟩
  · rw [hp, hstart] at hk
    split_ifs at hk with hkn
    rw [Function.update_of_ne hkn]
    exact h.blank hk
  · rw [hp, hstart] at ha
    split_ifs at ha with hkn
    · cases ha
      rw [hkn, Function.update_self]
      exact (h.fits hj).goes hg
    · rw [Function.update_of_ne hkn]
      exact h.fits ha
  · rcases hcases hi with hi | ⟨-, -, hi⟩
    · obtain ⟨x, hx⟩ := h.made hi
      obtain ⟨y, hy, -⟩ := hgrows.instance? hx
      exact ⟨y, hy⟩
    · rw [hp]
      exact ⟨_, List.getElem?_eq_getElem hi⟩
  · rw [hp, hstart] at hb
    rcases hcases hi with hi | ⟨rfl, hle, -⟩
    · split_ifs at hb with hmn
      · cases hb
        rw [hmn]
        rcases hg.index_cases with hsame | ⟨-, hnew⟩
        · exact h.apart hi hj (hsame i hidx)
        · obtain ⟨x, hx⟩ := h.made hi
          rw [hnew] at hidx
          cases hidx
          exact absurd (hlt hx) (Nat.lt_irrefl _)
      · exact h.apart hi hb hidx
    · split_ifs at hb with hmn
      · exact hmn
      · obtain ⟨x, hx, -⟩ := hm.made hb hidx
        exact absurd (hlt hx) (Nat.not_lt_of_le hle)

/-- **Records.** What records say is true in every run. -/
theorem logged_of_recorded (h : Recorded P s r) : s.Logged r := by
  induction h with
  | new budget roots directory isProcess clientProcess =>
    exact ⟨fun _ => rfl, fun ha => (by cases ha), fun hi => (by cases hi), fun hi => (by cases hi)⟩
  | @step s s' e r h he ha ih =>
    have hhappens := happens_of_act ha
    cases proceeds_of_happens (r := r) hhappens with
    | keeps hs hu hr =>
      rw [hr]
      exact ih.keeps (grows_of_happens hhappens) hs
    | claims b hb hp hr =>
      rw [hr]
      exact ih.claims b hp
    | starts hj hg hp hr =>
      rw [hr]
      exact ih.starts (made_of_reachable h.reachable) hj hg hp

/-- **Failed instances.** What a start has made is terminated, unless the start still has it. -/
theorem terminated_of_logged (hl : s.Logged r) (hc : s.pool.Covered) {i : Nat}
    (hj : s.pool.start? n = some j) (hi : i ∈ (r n).instances) :
    j.index? = some i ∨ ∃ x, s.pool.instance? i = some x ∧ x.lifecycle = .terminated := by
  obtain ⟨x, hx⟩ := hl.made hi
  by_cases hlive : x.lifecycle = .terminated
  · exact .inr ⟨x, hx, hlive⟩
  · obtain ⟨m, b, hb, hidx⟩ := hc ⟨x, hx, hlive⟩
    obtain rfl := hl.apart hi hb hidx
    rw [hj] at hb
    cases hb
    exact .inl hidx

end Depot

end DiagnosticBroker
