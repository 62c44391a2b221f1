import DiagnosticBroker.Backoff
import Mathlib.Data.Nat.Find
import Mathlib.Order.Bounds.Basic

/-!
# How often something is tried

An attempt is final if no other one follows it: its outcome is no fault that is worth another
attempt, or no attempt is left. A run makes all attempts up to the first final one, with the right
pause before each but the first, and nothing else, and comes to the outcome of the final one.

Results:
* `runFrom_of_final`: what is left of a run, up to the first final attempt.
* `exists_isLeast_final`: there is a first final attempt.
* `foldl_pauses`: the pauses of a run in which every attempt fails.
* `run_ends_at_first_final`: what a run does and comes to.
-/

namespace DiagnosticBroker.Backoff

variable {α : Type} {b : Backoff} {outcome : Nat → Except Fault α} {k attempt left : Nat}

/-- The fault of an attempt that is worth another one. -/
def Recoverable (outcome : Nat → Except Fault α) (k : Nat) : Prop :=
  ∃ f, outcome k = .error f ∧ f.isRecoverable = true

/-- No attempt follows this one. -/
def Final (b : Backoff) (outcome : Nat → Except Fault α) (k : Nat) : Prop :=
  ¬ Recoverable outcome k ∨ k + 1 = max 1 b.maxAttempts

/-! ## One attempt -/

theorem next_of_lt {f : Fault} (hf : f.isRecoverable = true) (hk : k + 1 < b.maxAttempts) :
    b.next k f = .again (b.delayBefore (k + 1)) (k + 1) := by
  simp [next, hf, hk]

theorem next_of_final {f : Fault} (h : f.isRecoverable = true → ¬ k + 1 < b.maxAttempts) :
    b.next k f = .giveUp := by
  rw [next, if_neg]
  simpa using h

theorem runFrom_final (h : b.Final outcome attempt) (last : Option Fault) :
    b.runFrom outcome attempt last (left + 1) = ⟨b.deedsFor attempt, .decided (outcome attempt)⟩ := by
  rw [runFrom]
  cases ho : outcome attempt with
  | ok a => rfl
  | error f =>
    have hnext : b.next attempt f = .giveUp := by
      apply next_of_final
      intro hf hlt
      rcases h with h | h
      · exact h ⟨f, ho, hf⟩
      · omega
    simp only [hnext]

theorem runFrom_not_final (h : ¬ b.Final outcome attempt) (hlt : attempt < b.attempts)
    (last : Option Fault) (left : Nat) :
    ∃ f, b.runFrom outcome attempt last (left + 1) =
      { b.runFrom outcome (attempt + 1) (some f) left with
        deeds := b.deedsFor attempt ++ (b.runFrom outcome (attempt + 1) (some f) left).deeds } := by
  rw [Final, not_or, not_not] at h
  obtain ⟨⟨f, ho, hf⟩, hne⟩ := h
  have hk : attempt + 1 < b.maxAttempts := by
    unfold attempts at hlt
    omega
  exact ⟨f, by simp only [runFrom, ho, next_of_lt hf hk]⟩

/-! ## The loop -/

/-- A run goes on to the first final attempt. -/
theorem runFrom_of_final (hfinal : b.Final outcome k) (hk : k < b.attempts)
    (hfirst : ∀ j, attempt ≤ j → j < k → ¬ b.Final outcome j) (hle : attempt ≤ k)
    (hleft : k < attempt + left) (last : Option Fault) :
    b.runFrom outcome attempt last left =
      ⟨(List.range' attempt (k + 1 - attempt)).flatMap b.deedsFor, .decided (outcome k)⟩ := by
  induction left generalizing attempt last with
  | zero => omega
  | succ left ih =>
    rcases Nat.eq_or_lt_of_le hle with rfl | hlt
    · rw [runFrom_final hfinal, Nat.add_sub_cancel_left]
      simp
    · obtain ⟨f, hrun⟩ := runFrom_not_final (hfirst attempt (Nat.le_refl _) hlt)
        (Nat.lt_trans hlt hk) last left
      have hrest := ih (fun j (hj : attempt + 1 ≤ j) => hfirst j (by omega)) hlt (by omega)
        (some f)
      have hcount : k + 1 - attempt = (k + 1 - (attempt + 1)) + 1 := by omega
      rw [hrun, hrest, hcount, List.range'_succ, List.flatMap_cons]

theorem exists_final (b : Backoff) (outcome : Nat → Except Fault α) :
    b.Final outcome (b.attempts - 1) := by
  right
  unfold attempts
  omega

/-- There is a first final attempt, and it is within what is allowed. -/
theorem exists_isLeast_final (b : Backoff) (outcome : Nat → Except Fault α) :
    ∃ k, IsLeast {k | b.Final outcome k} k ∧ k < b.attempts := by
  classical
  have hex : ∃ k, b.Final outcome k := ⟨_, exists_final b outcome⟩
  refine ⟨Nat.find hex, ⟨Nat.find_spec hex, fun j hj => Nat.find_min' hex hj⟩, ?_⟩
  have hle : Nat.find hex ≤ b.attempts - 1 := Nat.find_min' hex (exists_final b outcome)
  have hpos : 0 < b.attempts := Nat.lt_of_lt_of_le Nat.one_pos (Nat.le_max_left _ _)
  omega

/-! ## What was done -/

/-- What is done up to an attempt: a call, and then a pause and a call in turn. -/
def deedsUpTo (b : Backoff) (k : Nat) : List Deed :=
  .call 0 :: (List.range k).flatMap fun j => [.pause (b.delayBefore (j + 1)), .call (j + 1)]

theorem flatMap_deedsFor (b : Backoff) (k : Nat) :
    (List.range' 0 (k + 1)).flatMap b.deedsFor = b.deedsUpTo k := by
  rw [deedsUpTo, ← List.range_eq_range', List.range_succ_eq_map, List.flatMap_cons, List.flatMap_map]
  simp [deedsFor]

theorem call?_deedsUpTo (b : Backoff) (k : Nat) :
    (b.deedsUpTo k).filterMap Deed.call? = List.range (k + 1) := by
  rw [List.range_succ_eq_map, List.map_eq_flatMap]
  simp [deedsUpTo, Deed.call?, List.filterMap_cons, List.filterMap_flatMap]

theorem pause?_deedsUpTo (b : Backoff) (k : Nat) :
    (b.deedsUpTo k).filterMap Deed.pause? =
      (List.range k).map fun j => b.delayBefore (j + 1) := by
  rw [List.map_eq_flatMap]
  simp [deedsUpTo, Deed.pause?, List.filterMap_cons, List.filterMap_flatMap]

/-- If every attempt asks for another one, the first final attempt is the last one there is. -/
theorem eq_of_recoverable (h : IsLeast {k | b.Final outcome k} k) (hk : k < b.attempts)
    (hall : ∀ j < b.attempts, Recoverable outcome j) : k = b.attempts - 1 := by
  rcases h.1 with hfinal | hlast
  · exact absurd (hall k hk) hfinal
  · unfold attempts
    omega

/-- **How often something is tried.** Whatever the outcomes of its attempts are, an operation is
called for all attempts up to the first final one and for no other; before each call but the first
there is the pause that belongs to it, and nothing else is done. The run comes to the outcome of the
final attempt, and is never exhausted. If every attempt that is allowed fails with a recoverable
fault, the pauses add up to the total. -/
theorem run_ends_at_first_final (b : Backoff) (outcome : Nat → Except Fault α) :
    ∃ k, IsLeast {k | b.Final outcome k} k ∧
      (b.run outcome).calls = List.range (k + 1) ∧
      (b.run outcome).deeds = b.deedsUpTo k ∧
      (b.run outcome).ending = .decided (outcome k) ∧
      (b.run outcome).outcome = outcome k ∧
      ((∀ j < b.attempts, Recoverable outcome j) →
        (b.run outcome).pauses.foldl Duration.add .zero = b.total) := by
  obtain ⟨k, hleast, hk⟩ := exists_isLeast_final b outcome
  have hfirst : ∀ j, 0 ≤ j → j < k → ¬ b.Final outcome j := by
    intro j _ hlt hfinal
    exact Nat.not_le_of_lt hlt (hleast.2 hfinal)
  have hrun : b.run outcome = ⟨b.deedsUpTo k, .decided (outcome k)⟩ := by
    rw [run, runFrom_of_final hleast.1 hk hfirst (Nat.zero_le k) (by omega), Nat.sub_zero,
      flatMap_deedsFor]
  refine ⟨k, hleast, ?_, ?_, ?_, ?_, ?_⟩
  · rw [hrun, Run.calls, call?_deedsUpTo]
  · rw [hrun]
  · rw [hrun]
  · rw [hrun, Run.outcome]
  · intro hall
    rw [hrun, Run.pauses, pause?_deedsUpTo, List.foldl_map, eq_of_recoverable hleast hk hall, total]

/-- Three attempts are allowed, and all of them fail. -/
theorem run_ends_at_first_final_exhausted :
    (({} : Backoff).run fun _ => (.error .notConnected : Except Fault Unit)).calls = [0, 1, 2] ∧
      (({} : Backoff).run fun _ => (.error .notConnected : Except Fault Unit)).pauses.foldl
        Duration.add .zero = .ofMillis 300 := by
  obtain ⟨k, hleast, hcalls, -, -, -, htotal⟩ :=
    run_ends_at_first_final {} fun _ => (.error .notConnected : Except Fault Unit)
  have hrecoverable : ∀ j < ({} : Backoff).attempts,
      Recoverable (fun _ => (.error .notConnected : Except Fault Unit)) j :=
    fun _ _ => ⟨.notConnected, rfl, rfl⟩
  have hlast : k + 1 = 3 := hleast.1.resolve_left fun h => h ⟨.notConnected, rfl, rfl⟩
  have hmillis : ({} : Backoff).total = .ofMillis 300 := by decide +kernel
  refine ⟨?_, by rw [htotal hrecoverable, hmillis]⟩
  rw [hcalls, hlast]
  rfl

end DiagnosticBroker.Backoff
