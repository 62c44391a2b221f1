import DiagnosticBroker.Proofs.Pool.Orderly

/-!
# Instances and the starts that made them

Every instance is made by one start, for the backend of that start, and no two starts ever have the
same instance.

Results:
* `made_of_reachable`: starts have what they work with, and have it for themselves.
-/

namespace DiagnosticBroker

open Pool (Grows)

variable {w : Surroundings} {p q : Pool} {n : Nat} {j j' : StartJob}

/-- The instance that a start works with or has brought. -/
def StartJob.index? (j : StartJob) : Option Nat :=
  match j.phase with
  | .starting _ i _ => some i
  | .stopping _ i _ _ => some i
  | .settling (.ok i) => some i
  | .over (.ok i) => some i
  | _ => none

/-- The launch that a start waits for. -/
def StartJob.launch? (j : StartJob) : Option Nat :=
  match j.phase with
  | .launching _ l => some l
  | _ => none

/-- Starts have what they work with, and no two of them have the same instance. -/
structure Pool.Made (p : Pool) : Prop where
  launch : ∀ {j a l}, p.start? j = some a → a.launch? = some l → l < p.launches.length
  made : ∀ {j a i}, p.start? j = some a → a.index? = some i →
    ∃ x, p.instance? i = some x ∧ x.backend = a.backend
  apart : ∀ {j k a b i}, p.start? j = some a → p.start? k = some b → a.index? = some i →
    b.index? = some i → j = k

theorem StartJob.index?_afterFailure (now : Time) (j : StartJob) (k : Nat) (f : Fault) :
    (afterFailure now j k f).index? = none := by
  unfold afterFailure
  cases j.policy.next k f with
  | again pause k => rfl
  | giveUp => cases f.isRecoverable <;> rfl

theorem StartJob.launch?_afterFailure (now : Time) (j : StartJob) (k : Nat) (f : Fault) :
    (afterFailure now j k f).launch? = none := by
  unfold afterFailure
  cases j.policy.next k f with
  | again pause k => rfl
  | giveUp => cases f.isRecoverable <;> rfl

/-- A step of a start makes a new instance, or the start has none that it did not have before. -/
theorem StartJob.Goes.index_cases (h : j.Goes w p n q j') :
    (∀ i, j'.index? = some i → j.index? = some i) ∨
      q = (p.addInstance j.backend).1 ∧ j'.index? = some p.instances.length := by
  have hnone : j'.index? = none → ∀ i, j'.index? = some i → j.index? = some i := by
    intro hj i hi
    rw [hj] at hi
    cases hi
  cases h with
  | begins | crashes | resumes | marks | clears => exact .inl (hnone rfl)
  | refused hp f => exact .inl (hnone (index?_afterFailure ..))
  | stopped hp hx hs => exact .inl (hnone (index?_afterFailure ..))
  | connects hp => exact .inr ⟨rfl, rfl⟩
  | starts hp hx hs | succeeds hp hx hs | fails hp hx hs =>
    refine .inl fun i hi => ?_
    rw [index?, hp]
    exact hi
  | stops hp hx hs =>
    refine .inl fun i hi => ?_
    rw [index?, hp]
    exact hi
  | @settles r hp hh =>
    refine .inl fun i hi => ?_
    rw [index?, hp]
    cases r with
    | ok k => exact hi
    | error f => cases hi

/-- A start waits only for launches that it has asked for. -/
theorem StartJob.Goes.launch_lt (h : j.Goes w p n q j') {l : Nat} (hl : j'.launch? = some l) :
    l < q.launches.length := by
  have hlast : ∀ {p : Pool} {now : Time} {b : Backend} {d : Option String},
      p.launches.length < (p.launch now b d).1.launches.length := by simp [Pool.launch]
  cases h with
  | begins hp =>
    cases hl
    exact hlast
  | resumes hp =>
    cases hl
    exact hlast
  | refused hp f =>
    rw [launch?_afterFailure] at hl
    cases hl
  | stopped hp hx hs =>
    rw [launch?_afterFailure] at hl
    cases hl
  | connects | crashes | starts | succeeds | fails | stops | marks | settles | clears => cases hl

theorem Pool.Made.grows (h : p.Made) (hs : q.starts = p.starts) (hg : Grows p q) : q.Made := by
  have hstart : ∀ j, q.start? j = p.start? j := fun j => by rw [start?, start?, hs]
  refine ⟨fun {j a l} ha hl => ?_, fun {j a i} ha hi => ?_, fun {j k a b i} ha hb hi hk => ?_⟩
  · rw [hstart] at ha
    exact Nat.lt_of_lt_of_le (h.launch ha hl) hg.launches
  · rw [hstart] at ha
    obtain ⟨x, hx, hback⟩ := h.made ha hi
    obtain ⟨y, hy, hback'⟩ := hg.instance? hx
    exact ⟨y, hy, hback'.trans hback⟩
  · rw [hstart] at ha hb
    exact h.apart ha hb hi hk

theorem Pool.Made.claim (h : p.Made) (b : Backend) : (p.claim b).Made := by
  refine ⟨fun {j a l} ha hl => ?_, fun {j a i} ha hi => ?_, fun {j k a a' i} ha ha' hi hk => ?_⟩
  · rcases (start?_claim p b).mp ha with ha | ⟨-, rfl⟩
    · exact h.launch ha hl
    · cases hl
  · rcases (start?_claim p b).mp ha with ha | ⟨-, rfl⟩
    · exact h.made ha hi
    · cases hi
  · rcases (start?_claim p b).mp ha with ha | ⟨-, rfl⟩
    · rcases (start?_claim p b).mp ha' with ha' | ⟨-, rfl⟩
      · exact h.apart ha ha' hi hk
      · cases hk
    · cases hi

theorem Pool.Made.start (h : p.Made) (hj : p.start? n = some j) (hg : j.Goes w p n q j') :
    (q.setStart n j').Made := by
  have hstart := hg.start?_setStart hj
  have hgrows := grows_start hj hg
  -- A new instance is nobody else's.
  have hnew : ∀ {k a}, p.start? k = some a → a.index? ≠ some p.instances.length := by
    intro k a ha hi
    obtain ⟨x, hx, -⟩ := h.made ha hi
    have hlt : p.instances.length < p.instances.length := (List.getElem?_eq_some_iff.mp hx).1
    exact absurd hlt (Nat.lt_irrefl _)
  have hother : ∀ {k a i}, p.start? k = some a → a.index? = some i → j'.index? = some i →
      k = n := by
    intro k a i ha hi hi'
    rcases hg.index_cases with hsame | ⟨-, hnew'⟩
    · exact h.apart ha hj hi (hsame i hi')
    · rw [hnew'] at hi'
      cases hi'
      exact absurd hi (hnew ha)
  refine ⟨fun {k a l} ha hl => ?_, fun {k a i} ha hi => ?_, fun {k m a b i} ha hb hi hm => ?_⟩
  · rw [hstart] at ha
    split_ifs at ha
    · cases ha
      exact hg.launch_lt hl
    · exact Nat.lt_of_lt_of_le (h.launch ha hl) hgrows.launches
  · rw [hstart] at ha
    split_ifs at ha with hk
    · cases ha
      rcases hg.index_cases with hsame | ⟨rfl, hi'⟩
      · obtain ⟨x, hx, hback⟩ := h.made hj (hsame i hi)
        obtain ⟨y, hy, hback'⟩ := hgrows.instance? hx
        exact ⟨y, hy, by rw [hback', hback, hg.backend]⟩
      · rw [hi'] at hi
        cases hi
        refine ⟨.new j.backend p.budget p.roots p.directory, ?_, by rw [hg.backend]; rfl⟩
        exact List.getElem?_concat_length
    · obtain ⟨x, hx, hback⟩ := h.made ha hi
      obtain ⟨y, hy, hback'⟩ := hgrows.instance? hx
      exact ⟨y, hy, hback'.trans hback⟩
  · rw [hstart] at ha hb
    split_ifs at ha hb with hk hm' hm'
    · exact hk.trans hm'.symm
    · cases ha
      exact hk.trans (hother hb hm hi).symm
    · cases hb
      exact (hother ha hi hm).trans hm'.symm
    · exact h.apart ha hb hi hm

theorem Errand.Turn.starts {e : Errand} {state : Visitor.State} (h : e.Turn p q state) :
    q.starts = p.starts ∨ ∃ b, q = p.claim b :=
  h.thins_or_claims.imp (·.starts) fun ⟨b, _, hq⟩ => ⟨b, hq⟩

namespace Depot

variable {P : Depot → Event → Prop} {s s' : Depot} {e : Event}

theorem starts_letGo (p : Pool) (e : Errand) : (letGo p e).starts = p.starts := by
  unfold letGo
  split <;> rfl

theorem made_of_happens (hm : s.pool.Made) (h : s.Happens e s') : s'.pool.Made := by
  have hgrows := grows_of_happens h
  cases h with
  | elapses | lands | besides => exact hm.grows rfl hgrows
  | rests | visits => exact hm
  | starts hj hg => exact hm.start hj hg
  | goes hv hb hg =>
    rcases hg.turn.starts with hs | ⟨b, rfl⟩
    · exact hm.grows hs hgrows
    · exact hm.claim b
  | givesUp hv hb => exact hm.grows (starts_letGo ..) hgrows

/-- **Instances.** Starts have what they work with, and have it for themselves. -/
theorem made_of_reachable (h : Reachable P s) : s.pool.Made := by
  refine Reachable.induct (I := fun s => s.pool.Made) ?_ (fun s e t _ ih _ ha => ?_) h
  · exact fun budget roots directory isProcess clientProcess =>
      ⟨fun h => (by cases h), fun h => (by cases h), fun h => (by cases h)⟩
  · exact made_of_happens ih (happens_of_act ha)

end Depot

end DiagnosticBroker
