import DiagnosticBroker.Proofs.Pool.Attempts

/-!
# The budget of launches

A start asks for as many launches as its policy has attempts, unless one of them comes to something
that another one could not mend. The policy is that of the budget, but a single attempt if the start
before it, of the same command, has used up all of its own. Which commands these are is kept apart
from the starts, in a list that starts read and write at different times: the list agrees with the
records of the starts as long as nobody takes a slot away from a start.

Results:
* `spends_of_goes`: what a step of a start does to the list.
* `rationed_of_recorded`: what the list says and which policies starts have.
* `launches_within_budget`: how many launches a start asks for, and what it comes to.
* `relaunched`: a fault of a launch can be worded as if the attempts were used up.
-/

namespace DiagnosticBroker

open StartJob (Record isMendable)

variable {w : Surroundings} {p q : Pool} {c : Command} {i k m n : Nat} {j j' : StartJob}

/-! ## Starts whose attempts are used up -/

/-- Whether a start has come to a fault. -/
def StartJob.hasFailed (j : StartJob) : Bool :=
  match j.phase with
  | .settling (.error _) => true
  | .over (.error _) => true
  | _ => false

/-- A start has come to a fault although another attempt might have mended each of its own. -/
def StartJob.IsSpent (j : StartJob) (r : Record) : Prop :=
  j.hasFailed = true ∧ ∀ o ∈ r.outcomes, isMendable o = true

/-- What a step of a start does to its policy and to the list of commands whose attempts are used
up. -/
inductive StartJob.Spends (p q : Pool) (j j' : StartJob) (r r' : Record) : Prop where
  | begins (hp : j.phase = .begin)
      (hpolicy : j'.policy =
        if j.backend.command ∈ p.unavailable then Backoff.once else p.budget.startBackoff)
      (hu : q.unavailable = p.unavailable.filter (· ≠ j.backend.command))
      (hs : ¬ j'.IsSpent r')
  | keeps (hp : j.phase ≠ .begin) (hpolicy : j'.policy = j.policy)
      (hu : q.unavailable = p.unavailable) (hs : j'.IsSpent r' ↔ j.IsSpent r)
  | marks (hp : j.phase ≠ .begin) (hpolicy : j'.policy = j.policy)
      (hu : q.unavailable =
        j.backend.command :: p.unavailable.filter (· ≠ j.backend.command))
      (hs : j'.IsSpent r')

namespace StartJob

variable {r : Record}

theorem policy_afterFailure (now : Time) (j : StartJob) (k : Nat) (f : Fault) :
    (afterFailure now j k f).policy = j.policy := by
  unfold afterFailure
  split <;> rfl

theorem not_spent (h : j.hasFailed = false) : ¬ j.IsSpent r := fun hs => by
  rw [hs.1] at h
  cases h

/-- A start gives up at once only for a fault that another attempt could not mend. -/
theorem not_spent_afterFailure {now : Time} {f : Fault} (hr : r.Ended (.error f)) :
    ¬ (afterFailure now j k f).IsSpent r := by
  rintro ⟨hfailed, hall⟩
  have hf : f.isRecoverable = true := hall _ hr.mem
  unfold afterFailure at hfailed
  cases hn : j.policy.next k f with
  | again pause k' =>
    simp only [hn] at hfailed
    cases hfailed
  | giveUp =>
    simp only [hn, hf] at hfailed
    cases hfailed

theorem unavailable_settle (p : Pool) (j : StartJob) (r : StartResult) :
    (settle p j r).1.unavailable = p.unavailable := by
  cases r <;> rfl

theorem unavailable_clear (p : Pool) (n : Nat) (j : StartJob) (cause : String) :
    (clear p n j cause).1.unavailable = p.unavailable := by
  simp only [clear]
  split_ifs <;> rfl

/-- **Steps of starts.** The list of commands changes where the record says so. -/
theorem spends_of_goes (h : j.Fits r) (hg : j.Goes w p n q j') :
    Spends p q j j' r (r.after w p j q) := by
  -- A start that has not failed before and does not fail now.
  have hneither : j.hasFailed = false → ¬ j'.IsSpent (r.after w p j q) →
      (j'.IsSpent (r.after w p j q) ↔ j.IsSpent r) := fun h h' => iff_of_false h' (not_spent h)
  unfold Fits at h
  cases hg with
  | begins hp => exact .begins hp rfl rfl (not_spent rfl)
  | connects hp | crashes hp | starts hp | succeeds hp | fails hp | stops hp | resumes hp =>
    exact .keeps (by simp [hp]) rfl rfl (hneither (by rw [hasFailed, hp]) (not_spent rfl))
  | refused hp f hl =>
    simp only [hp] at h
    obtain ⟨hfailed, hlaunch, -⟩ := h
    refine .keeps (by simp [hp]) (policy_afterFailure ..) rfl (hneither (by rw [hasFailed, hp]) ?_)
    rw [Record.after_refused hp hl]
    exact not_spent_afterFailure (hfailed.ended hlaunch _)
  | stopped hp hx hs =>
    simp only [hp] at h
    refine .keeps (by simp [hp]) (policy_afterFailure ..) rfl (hneither (by rw [hasFailed, hp]) ?_)
    rw [Record.after_stopping hp]
    exact not_spent_afterFailure h.1
  | marks hp =>
    simp only [hp] at h
    refine .marks (by simp [hp]) rfl rfl ⟨rfl, ?_⟩
    rw [Record.after_marking hp]
    exact h.1.2
  | @settles o hp hh =>
    refine .keeps (by simp [hp]) rfl (unavailable_settle ..) ?_
    rw [Record.after_between (launches_settle ..) (by rw [instances_settle]) (by simp [hp])
      (by simp [hp]), IsSpent, IsSpent]
    cases o <;> simp [hasFailed, settle, hp]
  | clears hp hh =>
    exact .keeps (by simp [hp]) rfl (unavailable_clear ..)
      (hneither (by rw [hasFailed, hp]) (not_spent rfl))

theorem Goes.phase_ne_begin (hg : j.Goes w p n q j') : j'.phase ≠ .begin := by
  have hfail : ∀ k f, (afterFailure w.now j k f).phase ≠ .begin := by
    intro k f
    unfold afterFailure
    cases j.policy.next k f with
    | again pause k' => simp
    | giveUp => cases f.isRecoverable <;> simp
  cases hg with
  | refused | stopped => exact hfail _ _
  | _ => simp [decide, beginAttempt, settle, clear]

end StartJob

/-! ## The start before a start -/

namespace Pool

variable {r r' : Nat → Record}

/-- The last start of a command of those before a number. -/
def Latest (p : Pool) (c : Command) (n m : Nat) : Prop :=
  m < n ∧ p.Knows c m ∧ ∀ k, m < k → k < n → ¬ p.Knows c k

/-- The last start of a command of those before a number has used up its attempts. -/
def Spent (p : Pool) (r : Nat → Record) (c : Command) (n : Nat) : Prop :=
  ∃ m a, p.Latest c n m ∧ p.start? m = some a ∧ a.IsSpent (r m)

/-- A start has decided how many attempts it has. -/
def HasBegun (p : Pool) (k : Nat) : Prop := ∃ a, p.start? k = some a ∧ a.phase ≠ .begin

theorem Latest.eq (h : p.Latest c n m) (h' : p.Latest c n k) : m = k := by
  obtain ⟨hm, hknows, hlast⟩ := h
  obtain ⟨hk, hknows', hlast'⟩ := h'
  rcases Nat.lt_trichotomy m k with hlt | heq | hlt
  · exact absurd hknows' (hlast k hlt hk)
  · exact heq
  · exact absurd hknows (hlast' m hlt hm)

theorem latest_congr (h : ∀ k, k < n → (q.Knows c k ↔ p.Knows c k)) :
    q.Latest c n m ↔ p.Latest c n m := by
  constructor
  · rintro ⟨hm, hknows, hlast⟩
    exact ⟨hm, (h m hm).mp hknows, fun k hk hkn hknows => hlast k hk hkn ((h k hkn).mpr hknows)⟩
  · rintro ⟨hm, hknows, hlast⟩
    exact ⟨hm, (h m hm).mpr hknows, fun k hk hkn hknows => hlast k hk hkn ((h k hkn).mp hknows)⟩

/-- Whether attempts were used up depends only on the last start. -/
theorem spent_congr (h : ∀ k, k < n → (q.Knows c k ↔ p.Knows c k))
    (hm : ∀ m, p.Latest c n m → q.start? m = p.start? m ∧ r' m = r m) :
    q.Spent r' c n ↔ p.Spent r c n := by
  constructor
  · rintro ⟨m, a, hlatest, ha, hs⟩
    have hlatest := (latest_congr h).mp hlatest
    obtain ⟨hstart, hrecord⟩ := hm m hlatest
    exact ⟨m, a, hlatest, hstart ▸ ha, hrecord ▸ hs⟩
  · rintro ⟨m, a, hlatest, ha, hs⟩
    obtain ⟨hstart, hrecord⟩ := hm m hlatest
    exact ⟨m, a, (latest_congr h).mpr hlatest, hstart.trans ha, hrecord.symm ▸ hs⟩

theorem spent_iff_of_latest (h : p.Latest c n m) (hj : p.start? m = some j) :
    p.Spent r c n ↔ j.IsSpent (r m) := by
  constructor
  · rintro ⟨k, a, hk, ha, hs⟩
    obtain rfl := h.eq hk
    rw [hj] at ha
    cases ha
    exact hs
  · exact fun hs => ⟨m, j, h, hj, hs⟩

end Pool

namespace Depot

variable {P : Depot → Event → Prop} {s s' : Depot} {e : Event} {r r' : Nat → Record}

/-! ## What the list says -/

/-- The starts of a command come one after the other, the list has the commands whose last start used
up its attempts, and each start has the policy that follows from the one before. -/
structure Rationed (s : Depot) (r : Nat → Record) : Prop where
  order : ∀ {c m n}, s.pool.IsStarting c m → s.pool.Knows c n → n ≤ m
  marked : ∀ {c n}, (∀ k, s.pool.Knows c k → (k < n ↔ s.pool.HasBegun k)) →
    (c ∈ s.pool.unavailable ↔ s.pool.Spent r c n)
  policy : ∀ {n a}, s.pool.start? n = some a → a.phase ≠ .begin →
    (s.pool.Spent r a.backend.command n → a.policy = .once) ∧
      (¬ s.pool.Spent r a.backend.command n → a.policy = s.pool.budget.startBackoff)

theorem Rationed.keeps (h : s.Rationed r) (hb : s'.pool.budget = s.pool.budget)
    (hs : s'.pool.starts = s.pool.starts) (hu : s'.pool.unavailable = s.pool.unavailable) :
    s'.Rationed r := by
  have hstart := Pool.start?_congr hs
  have hspent : ∀ c n, s'.pool.Spent r c n ↔ s.pool.Spent r c n := fun c n =>
    Pool.spent_congr (fun k _ => by rw [Pool.Knows, Pool.Knows, hstart])
      fun m _ => ⟨hstart m, rfl⟩
  refine ⟨fun {c m n} hm hn => ?_, fun {c n} hn => ?_, fun {n a} ha hp => ?_⟩
  · rw [Pool.Knows, hstart] at hn
    exact h.order ((Pool.isStarting_congr hs).mp hm) hn
  · rw [hu, hspent]
    refine h.marked fun k hk => ?_
    have hbegun := hn k (by rwa [Pool.Knows, hstart])
    rwa [Pool.HasBegun, hstart] at hbegun
  · rw [hspent, hb]
    exact h.policy ((hstart n).symm.trans ha) hp

theorem knows_claim (p : Pool) (b : Backend) :
    (p.claim b).Knows c k ↔ p.Knows c k ∨ k = p.starts.length ∧ b.command = c := by
  constructor
  · rintro ⟨a, ha, hc⟩
    rcases (Pool.start?_claim p b).mp ha with ha | ⟨hk, rfl⟩
    · exact .inl ⟨a, ha, hc⟩
    · exact .inr ⟨hk, hc⟩
  · rintro (⟨a, ha, hc⟩ | ⟨hk, hc⟩)
    · exact ⟨a, (Pool.start?_claim p b).mpr (.inl ha), hc⟩
    · exact ⟨_, (Pool.start?_claim p b).mpr (.inr ⟨hk, rfl⟩), hc⟩

theorem lt_of_knows (h : p.Knows c k) : k < p.starts.length := by
  obtain ⟨a, ha, -⟩ := h
  exact (List.getElem?_eq_some_iff.mp ha).1

/-- A new start changes nothing for those before it. -/
theorem spent_claim (b : Backend) (hn : b.command = c → n ≤ p.starts.length) :
    (p.claim b).Spent r c n ↔ p.Spent r c n := by
  refine Pool.spent_congr (fun k hk => ?_) fun m hm => ⟨?_, rfl⟩
  · rw [knows_claim]
    refine or_iff_left ?_
    rintro ⟨rfl, hc⟩
    exact absurd hk (Nat.not_lt_of_le (hn hc))
  · obtain ⟨a, ha, -⟩ := hm.2.1
    rw [ha]
    exact (Pool.start?_claim p b).mpr (.inl ha)

theorem Rationed.claims (h : s.Rationed r) (ho : s.pool.Owned) (b : Backend)
    (hb : s.pool.slot? b.command = none) (hp : s'.pool = s.pool.claim b) : s'.Rationed r := by
  have hnew : (s.pool.claim b).start? s.pool.starts.length = some { backend := b } :=
    (Pool.start?_claim s.pool b).mpr (.inr ⟨rfl, rfl⟩)
  refine ⟨fun {c m n} hm hn => ?_, fun {c n} hn => ?_, fun {n a} ha hbegun => ?_⟩
  · rw [hp] at hm hn
    rcases Pool.isStarting_claim.mp hm with hm | ⟨rfl, -⟩ <;>
      rcases (knows_claim s.pool b).mp hn with hn | ⟨rfl, hc⟩
    · exact h.order hm hn
    · subst hc
      have hmarks := ho _ m hm
      rw [Pool.Marks, hb] at hmarks
      cases hmarks
    · exact Nat.le_of_lt (lt_of_knows hn)
    · exact Nat.le_refl _
  · rw [hp] at hn ⊢
    have hle : b.command = c → n ≤ s.pool.starts.length := by
      intro hc
      by_contra hlt
      obtain ⟨a, ha, hbegun⟩ := (hn _ ⟨_, hnew, hc⟩).mp (Nat.lt_of_not_le hlt)
      rw [hnew] at ha
      cases ha
      exact hbegun rfl
    rw [spent_claim b hle]
    refine h.marked fun k hk => ?_
    have hold := hn k ((knows_claim s.pool b).mpr (.inl hk))
    have hsame : (s.pool.claim b).start? k = s.pool.start? k := by
      obtain ⟨a, ha, -⟩ := hk
      rw [ha]
      exact (Pool.start?_claim s.pool b).mpr (.inl ha)
    rwa [Pool.HasBegun, hsame] at hold
  · rw [hp] at ha ⊢
    rcases (Pool.start?_claim s.pool b).mp ha with ha | ⟨-, rfl⟩
    · rw [spent_claim b fun _ => Nat.le_of_lt (lt_of_knows ⟨a, ha, rfl⟩)]
      exact h.policy ha hbegun
    · exact absurd rfl hbegun

theorem knows_setStart (hj : p.start? n = some j) (hg : j.Goes w p n q j') :
    (q.setStart n j').Knows c k ↔ p.Knows c k := by
  have hstart := hg.start?_setStart hj
  unfold Pool.Knows
  rw [hstart]
  split_ifs with hk
  · subst hk
    simp [hj, hg.backend]
  · rfl

/-- What other starts have used up is as before a step of a start. -/
theorem spent_setStart (hj : s.pool.start? n = some j)
    (hg : j.Goes w s.pool n q j') (r' : Record)
    (hn : j.backend.command = c → k ≤ n) :
    (q.setStart n j').Spent (Function.update r n r') c k ↔ s.pool.Spent r c k := by
  refine Pool.spent_congr (fun _ _ => knows_setStart hj hg) fun m hm => ?_
  obtain ⟨hmk, ⟨a, ha, hc⟩, -⟩ := hm
  have hne : m ≠ n := by
    rintro rfl
    rw [hj] at ha
    cases ha
    exact absurd hmk (Nat.not_lt_of_le (hn hc))
  rw [hg.start?_setStart hj, if_neg hne, Function.update_of_ne hne]
  exact ⟨rfl, rfl⟩

/-- All starts before one that is about to begin have begun. -/
theorem Rationed.begun_iff (h : s.Rationed r) (hj : s.pool.start? n = some j)
    (hp : j.phase = .begin) (hk : s.pool.Knows j.backend.command k) :
    k < n ↔ s.pool.HasBegun k := by
  obtain ⟨a, ha, hc⟩ := hk
  constructor
  · intro hlt
    refine ⟨a, ha, fun hbegin => ?_⟩
    have hstarting : s.pool.IsStarting a.backend.command k :=
      ⟨a, ha, by rw [StartJob.isUnderWay, hbegin], rfl⟩
    have hle : n ≤ k := h.order hstarting ⟨j, hj, hc.symm⟩
    omega
  · rintro ⟨b, hb, hbegun⟩
    have hstarting : s.pool.IsStarting j.backend.command n :=
      ⟨j, hj, by rw [StartJob.isUnderWay, hp], rfl⟩
    have hle : k ≤ n := h.order hstarting ⟨a, ha, hc⟩
    refine Nat.lt_of_le_of_ne hle ?_
    rintro rfl
    rw [hj] at hb
    cases hb
    exact hbegun hp

theorem Rationed.policy_of_goes (h : s.Rationed r) (hl : s.Logged r)
    (hj : s.pool.start? n = some j) (hg : j.Goes w s.pool n q j') :
    (s.pool.Spent r j.backend.command n → j'.policy = .once) ∧
      (¬ s.pool.Spent r j.backend.command n → j'.policy = s.pool.budget.startBackoff) := by
  cases StartJob.spends_of_goes (hl.fits hj) hg with
  | begins hp hpolicy =>
    have hmarked := h.marked fun k hk => h.begun_iff hj hp hk
    rw [hpolicy]
    exact ⟨fun hs => if_pos (hmarked.mpr hs), fun hs => if_neg fun hm => hs (hmarked.mp hm)⟩
  | keeps hp hpolicy | marks hp hpolicy =>
    rw [hpolicy]
    exact h.policy hj hp

/-- After a step of a start, the list says of its command whether the start is spent. -/
theorem Rationed.marked_of_goes (h : s.Rationed r) (hl : s.Logged r)
    (hj : s.pool.start? n = some j) (hg : j.Goes w s.pool n q j')
    (hlatest : s.pool.Latest j.backend.command k n)
    (hk : j.phase ≠ .begin → ∀ m, s.pool.Knows j.backend.command m →
      (m < k ↔ s.pool.HasBegun m)) :
    j.backend.command ∈ q.unavailable ↔ j'.IsSpent ((r n).after w s.pool j q) := by
  cases StartJob.spends_of_goes (hl.fits hj) hg with
  | begins hp hpolicy hu hs => simp [hu, hs]
  | keeps hp hpolicy hu hs =>
    rw [hu, hs, h.marked (hk hp)]
    exact Pool.spent_iff_of_latest hlatest hj
  | marks hp hpolicy hu hs => simp [hu, hs]

/-- A step of a start changes the list only for its own command. -/
theorem mem_unavailable_of_goes {r : Record} (hf : j.Fits r) (hg : j.Goes w p n q j')
    (hc : c ≠ j.backend.command) : c ∈ q.unavailable ↔ c ∈ p.unavailable := by
  cases StartJob.spends_of_goes hf hg with
  | begins hp hpolicy hu | keeps hp hpolicy hu | marks hp hpolicy hu => simp [hu, hc]

theorem Rationed.starts (h : s.Rationed r) (hl : s.Logged r) (hj : s.pool.start? n = some j)
    (hg : j.Goes w s.pool n q j') (hp : s'.pool = q.setStart n j') :
    s'.Rationed (Function.update r n ((r n).after w s.pool j q)) := by
  have hstart := hg.start?_setStart hj
  have hstarting : s.pool.IsStarting j.backend.command n := ⟨j, hj, hg.isUnderWay, rfl⟩
  refine ⟨fun {c m k} hm hk => ?_, fun {c k} hk => ?_, fun {k a} ha hbegun => ?_⟩
  · rw [hp, knows_setStart hj hg] at hk
    refine h.order ?_ hk
    obtain ⟨a, ha, hw, hc⟩ := hm
    rw [hp, hstart] at ha
    split_ifs at ha with hmn
    · cases ha
      subst hmn
      exact ⟨j, hj, hg.isUnderWay, by rw [← hg.backend, hc]⟩
    · exact ⟨a, ha, hw, hc⟩
  · rw [hp] at hk ⊢
    simp only [knows_setStart hj hg] at hk
    -- Another start has begun if and only if it had before.
    have hother : ∀ m, m ≠ n →
        ((q.setStart n j').HasBegun m ↔ s.pool.HasBegun m) := fun m hm => by
      rw [Pool.HasBegun, Pool.HasBegun, hstart, if_neg hm]
    have hown : (q.setStart n j').HasBegun n :=
      ⟨j', by rw [hstart, if_pos rfl], hg.phase_ne_begin⟩
    change c ∈ q.unavailable ↔ _
    by_cases hc : c = j.backend.command
    · subst hc
      have hlatest : s.pool.Latest j.backend.command k n := by
        refine ⟨(hk n ⟨j, hj, rfl⟩).mpr hown, ⟨j, hj, rfl⟩, fun m hnm _ hm => ?_⟩
        exact absurd hnm (Nat.not_lt_of_le (h.order hstarting hm))
      have hlatest' : (q.setStart n j').Latest j.backend.command k n :=
        (Pool.latest_congr fun _ _ => knows_setStart hj hg).mpr hlatest
      rw [Pool.spent_iff_of_latest hlatest' (by rw [hstart, if_pos rfl]), Function.update_self]
      refine h.marked_of_goes hl hj hg hlatest fun hbegun m hm => ?_
      by_cases hmn : m = n
      · subst hmn
        exact iff_of_true hlatest.1 ⟨j, hj, hbegun⟩
      · rw [hk m hm, hother m hmn]
    · rw [mem_unavailable_of_goes (hl.fits hj) hg hc,
        spent_setStart hj hg _ fun heq => absurd heq.symm hc]
      refine h.marked fun m hm => ?_
      have hmn : m ≠ n := by
        rintro rfl
        obtain ⟨a, ha, hca⟩ := hm
        rw [hj] at ha
        cases ha
        exact hc hca.symm
      rw [hk m hm, hother m hmn]
  · have hbudget : s'.pool.budget = s.pool.budget := by
      rw [hp]
      exact hg.grows.1.budget
    rw [hp, hstart] at ha
    rw [hbudget, hp]
    split_ifs at ha with hkn
    · cases ha
      subst hkn
      rw [hg.backend, spent_setStart hj hg _ fun _ => Nat.le_refl _]
      exact h.policy_of_goes hl hj hg
    · rw [spent_setStart hj hg _ fun hc => h.order hstarting ⟨a, ha, hc.symm⟩]
      exact h.policy ha hbegun

/-- **Rations.** As long as nobody takes a slot away from a start, the list of commands whose attempts
are used up agrees with the records, and so do the policies of starts. -/
theorem rationed_of_recorded (h : Recorded (fun s e => ¬ s.Evicts e) s r) : s.Rationed r := by
  induction h with
  | new budget roots directory isProcess clientProcess =>
    refine ⟨fun hm => ?_, fun _ => ?_, fun ha => (by cases ha)⟩
    · obtain ⟨a, ha, -⟩ := hm
      cases ha
    · refine iff_of_false (by simp [Depot.new]) ?_
      rintro ⟨m, a, -, ha, -⟩
      cases ha
  | @step s s' e r h he ha ih =>
    have hhappens := happens_of_act ha
    cases proceeds_of_happens (r := r) hhappens with
    | keeps hs hu hr =>
      rw [hr]
      exact ih.keeps (grows_of_happens hhappens).budget hs hu
    | claims b hb hp hr =>
      rw [hr]
      exact ih.claims (owned_of_reachable h.reachable) b hb hp
    | starts hj hg hp hr =>
      rw [hr]
      exact ih.starts (logged_of_recorded h) hj hg hp

/-! ## The budget -/

/-- What the start with a number has done, as its record has it, and what it comes to. -/
structure WithinBudget (s : Depot) (r : Nat → Record) (n : Nat) (a : StartJob) : Prop where
  /-- There are no more launches than the budget has attempts. -/
  launches : (r n).launches ≤ s.pool.budget.startAttempts
  /-- The start before this one, of the same command, is over. If it ended as unresponsive, and not
  because an attempt of its own failed so, there is at most one launch. -/
  after : ∀ {m b}, s.pool.Latest a.backend.command n m → s.pool.start? m = some b →
    b.isUnderWay = false ∧ ∀ command attempts,
      b.phase = .over (.error (.unresponsive command attempts)) →
      .error (.unresponsive command attempts) ∉ (r m).outcomes → (r n).launches ≤ 1
  /-- There is no launch after an attempt that succeeded, or that another one could not mend. -/
  stops : ∀ {i o}, (r n).outcomes[i]? = some o → isMendable o = false → (r n).launches = i + 1
  /-- The start returns what came of such an attempt. -/
  returns : ∀ {o result}, a.phase = .over result → o ∈ (r n).outcomes → isMendable o = false →
    o = result.map fun _ => ()
  /-- It returns the instance that it has made last. -/
  brings : ∀ {i}, a.phase = .over (.ok i) → (r n).instances.getLast? = some i
  /-- It returns its own fault if and only if every launch came to a failure that another one might
  have mended, and the fault tells how many there were. -/
  unresponsive : ∀ {result m}, a.phase = .over result →
    (result = .error (a.ownFault m) ∧ .error (a.ownFault m) ∉ (r n).outcomes ↔
      (r n).launches = m ∧ (r n).outcomes.length = m ∧ ∀ o ∈ (r n).outcomes, isMendable o = true)
  /-- An instance that it has made is terminated, unless it still starts or stops this one, or returns
  it. -/
  terminated : ∀ {i}, i ∈ (r n).instances →
    (∃ k h, a.phase = .starting k i h) ∨ (∃ k h f, a.phase = .stopping k i h f) ∨
      a.phase = .settling (.ok i) ∨ a.phase = .over (.ok i) ∨
      ∃ x, s.pool.instance? i = some x ∧ x.lifecycle = .terminated

theorem phase_of_index {a : StartJob} (h : a.index? = some i) :
    (∃ k h, a.phase = .starting k i h) ∨ (∃ k h f, a.phase = .stopping k i h f) ∨
      a.phase = .settling (.ok i) ∨ a.phase = .over (.ok i) := by
  unfold StartJob.index? at h
  split at h <;> rename_i hp
  · cases h
    exact .inl ⟨_, _, hp⟩
  · cases h
    exact .inr (.inl ⟨_, _, _, hp⟩)
  · cases h
    exact .inr (.inr (.inl hp))
  · cases h
    exact .inr (.inr (.inr hp))
  · cases h

/-- What ended as unresponsive on its own account is spent. -/
theorem spent_of_unresponsive {b : StartJob} {r : Record} {command : String} {attempts : Nat}
    (hf : b.Fits r) (hp : b.phase = .over (.error (.unresponsive command attempts)))
    (hnot : .error (.unresponsive command attempts) ∉ r.outcomes) : b.IsSpent r := by
  refine ⟨by rw [StartJob.hasFailed, hp], ?_⟩
  rcases hf.settles hp with ⟨hended, -, -⟩ | ⟨-, hfailed, -⟩
  · exact absurd hended.mem hnot
  · exact hfailed.2

/-- The number of launches is at most that of the policy, which follows from the start before. -/
theorem Rationed.launches_le (h : s.Rationed r) (hl : s.Logged r) {a : StartJob}
    (ha : s.pool.start? n = some a) :
    (r n).launches ≤ s.pool.budget.startAttempts ∧
      (s.pool.Spent r a.backend.command n → (r n).launches ≤ 1) := by
  have hfits := hl.fits ha
  by_cases hp : a.phase = .begin
  · have hblank : r n = {} := by simpa only [StartJob.Fits, hp] using hfits
    rw [hblank]
    exact ⟨Nat.zero_le _, fun _ => Nat.zero_le _⟩
  · obtain ⟨honce, hfull⟩ := h.policy ha hp
    have hle := hfits.tells.1
    by_cases hs : s.pool.Spent r a.backend.command n
    · rw [honce hs] at hle
      exact ⟨Nat.le_trans hle (StartJob.one_le_startAttempts _), fun _ => hle⟩
    · rw [hfull hs] at hle
      exact ⟨hle, fun hs' => absurd hs' hs⟩

/-- **Launch budget.** As long as nobody takes a slot away from a start, every start keeps within the
budget of launches. -/
theorem launches_within_budget (h : Recorded (fun s e => ¬ s.Evicts e) s r) {a : StartJob}
    (ha : s.pool.start? n = some a) : s.WithinBudget r n a := by
  have hl := logged_of_recorded h
  have hr := rationed_of_recorded h
  have hfits := hl.fits ha
  refine ⟨(hr.launches_le hl ha).1, fun {m b} hm hb => ⟨?_, fun command attempts hp hnot => ?_⟩,
    hfits.launches_eq, fun hp => (hfits.settles hp).eq_map, fun hp => (hfits.settles hp).2.2,
    fun hp => ?_, fun {i} hi => ?_⟩
  · obtain ⟨hmn, ⟨b', hb', hc⟩, -⟩ := hm
    rw [hb] at hb'
    cases hb'
    by_contra hw
    have hstarting : s.pool.IsStarting a.backend.command m := ⟨b, hb, by simpa using hw, hc⟩
    exact absurd hmn (Nat.not_lt_of_le (hr.order hstarting ⟨a, ha, rfl⟩))
  · exact (hr.launches_le hl ha).2 ⟨m, b, hm, hb, spent_of_unresponsive (hl.fits hb) hp hnot⟩
  · have hsettles := hfits.settles hp
    rw [hsettles.own_iff, hsettles.length_eq]
    exact ⟨fun ⟨hm, hall⟩ => ⟨hm, hm, hall⟩, fun ⟨hm, _, hall⟩ => ⟨hm, hall⟩⟩
  · rcases terminated_of_logged hl (covered_of_reachable h.reachable) ha hi with hindex | hdone
    · rcases phase_of_index hindex with hp | hp | hp | hp
      · exact .inl hp
      · exact .inr (.inl hp)
      · exact .inr (.inr (.inl hp))
      · exact .inr (.inr (.inr (.inl hp)))
    · exact .inr (.inr (.inr (.inr hdone)))

/-! ## Two starts, one after the other -/

/-- Whether the task of a launch dies. -/
def Event.isCrash : Event → Bool
  | .land _ (.crashed _ _) => true
  | _ => false

/-- A visitor comes and makes a new start. -/
def coming (visitor : Nat) : List Event := [.visit (.ready python), go visitor, go visitor]

/-- A launch of a start fails. -/
def refusing (start launch : Nat) (f : Fault) : List Event :=
  [advance start, .land launch (.refused f), advance start]

/-- What comes of some events, with the records. -/
def recording (es : List Event) : Depot × (Nat → Record) :=
  (sample.followNoting (fun _ => {}) es).getD (sample, fun _ => {})

theorem recorded_of_events (es : List Event)
    (hes : ∀ e ∈ es, e.isShutdown = false ∧ e.isCrash = false)
    (hf : (sample.followNoting (fun _ => {}) es).isSome = true) :
    Recorded (fun s e => ¬ s.Evicts e ∧ e.isCrash = false) (recording es).1 (recording es).2 := by
  have hnew : Recorded (fun _ e => e.isShutdown = false ∧ e.isCrash = false) sample fun _ => {} :=
    .new ..
  obtain ⟨⟨s, r⟩, hs⟩ := Option.isSome_iff_exists.mp hf
  have hrun := hnew.followNoting (fun _ e he => hes e he) hs
  rw [recording, hs]
  exact (hrun.unevicted fun _ _ he => he.1).mono fun _ _ he => ⟨he.1, he.2.2⟩

/-- Two starts of one command, with what came of the first one. -/
theorem latest_of_starts {x y : Option StartResult}
    (h : p.starts.map (fun j => (j.backend.command, j.result?)) = [(c, x), (c, y)]) :
    ∃ a b, p.start? 0 = some a ∧ p.start? 1 = some b ∧ a.backend.command = c ∧ a.result? = x ∧
      p.Latest b.backend.command 1 0 := by
  obtain ⟨a, rest, hstarts, ha, hrest⟩ := List.map_eq_cons_iff.mp h
  obtain ⟨b, rest', hstarts', hb, -⟩ := List.map_eq_cons_iff.mp hrest
  have h₀ : p.start? 0 = some a := by rw [Pool.start?, hstarts]; rfl
  have h₁ : p.start? 1 = some b := by rw [Pool.start?, hstarts, hstarts']; rfl
  simp only [Prod.mk.injEq] at ha hb
  refine ⟨a, b, h₀, h₁, ha.1, ha.2, by omega, ⟨a, h₀, by rw [ha.1, hb.1]⟩, fun k _ _ => ?_⟩
  omega

theorem phase_of_unresponsive {a : StartJob} {command : String} {attempts : Nat}
    (h : a.result? = some (.error (.unresponsive command attempts))) :
    a.phase = .over (.error (.unresponsive command attempts)) := by
  unfold StartJob.result? at h
  cases hp : a.phase <;> simp only [hp] at h <;> cases h
  rfl

/-- The first start uses up its three attempts, and the second one its only one. -/
def failing : List Event :=
  coming 0 ++ refusing 0 0 .notConnected ++ [.elapse 1000 0] ++ refusing 0 1 .notConnected ++
    [.elapse 1000 0] ++ refusing 0 2 .notConnected ++ [advance 0, advance 0, go 0] ++
    coming 1 ++ refusing 1 3 .notConnected ++ [advance 1, advance 1, go 1]

theorem launches_within_budget_failing :
    ((recording failing).2 0).launches = 3 ∧ ((recording failing).2 1).launches ≤ 1 := by
  have hrecorded := recorded_of_events failing (by decide) (by decide +kernel)
  obtain ⟨a, b, ha, hb, hcommand, hresult, hlatest⟩ :=
    latest_of_starts (p := (recording failing).1.pool) (c := python.command)
      (x := some (.error (.unresponsive "pylsp" 3)))
      (y := some (.error (.unresponsive "pylsp" 1))) (by decide +kernel)
  have hfirst := launches_within_budget (hrecorded.mono fun _ _ he => he.1) ha
  have hsecond := launches_within_budget (hrecorded.mono fun _ _ he => he.1) hb
  have hover := phase_of_unresponsive hresult
  have hown : a.ownFault 3 = .unresponsive "pylsp" 3 := by
    rw [StartJob.ownFault, hcommand]
    decide
  have hnot : .error (.unresponsive "pylsp" 3) ∉ ((recording failing).2 0).outcomes := by
    decide +kernel
  refine ⟨((hfirst.unresponsive hover).mp ?_).1, (hsecond.after hlatest ha).2 _ _ hover hnot⟩
  rw [hown]
  exact ⟨rfl, hnot⟩

/-- A start fails with a fault that is worded as if its attempts were used up, and the one after it
goes on to a second launch. -/
def misleading : List Event :=
  coming 0 ++ refusing 0 0 (.unresponsive "x" 7) ++ [advance 0, go 0] ++
    coming 1 ++ refusing 1 1 .notConnected ++ [.elapse 1000 0, advance 1]

/-- After a start that ended as unresponsive, only because its launch failed so, there can be more
than one launch. -/
theorem relaunched :
    ¬ ∀ (s : Depot) (r : Nat → Record) (n m : Nat) (a b : StartJob) (command : String)
      (attempts : Nat), Recorded (fun s e => ¬ s.Evicts e ∧ e.isCrash = false) s r →
      s.pool.start? n = some a → s.pool.Latest a.backend.command n m →
      s.pool.start? m = some b → b.phase = .over (.error (.unresponsive command attempts)) →
      (r n).launches ≤ 1 := by
  intro h
  have hrecorded := recorded_of_events misleading (by decide) (by decide +kernel)
  obtain ⟨a, b, ha, hb, -, hresult, hlatest⟩ :=
    latest_of_starts (p := (recording misleading).1.pool) (c := python.command)
      (x := some (.error (.unresponsive "x" 7))) (y := none) (by decide +kernel)
  have hle := h _ _ 1 0 b a "x" 7 hrecorded hb hlatest ha (phase_of_unresponsive hresult)
  have htwo : ((recording misleading).2 1).launches = 2 := by decide +kernel
  omega

end Depot
end DiagnosticBroker
