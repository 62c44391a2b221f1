import DiagnosticBroker.Proofs.Instance.HangUp
import DiagnosticBroker.Proofs.Instance.Parting
import DiagnosticBroker.Proofs.Instance.Settlement

/-!
# How a backend is dismissed

A shutdown that comes when the input is closed is turned away. One that looks earlier asks the
backend to shut down, also when another has asked it and still waits for the answer.

Results:
* `pleas_le_of_traced`: each shutdown asks the backend once at most.
* `single_of_traced`: all together do, if none looks while another is asking.
* `dismissed_of_traced`: when all have ended, the instance is stopped, its channel is closed, and
  nobody waits.
* `dismissal_of_traced`: that, and how often the backend is told to exit.
-/

namespace DiagnosticBroker

namespace Instance

/-- Whether a shutdown waits for the backend to agree. -/
def Shutdown.isAsking : Shutdown → Bool
  | asking _ _ => true
  | _ => false

/-- Whether a shutdown is about to ask the backend. -/
def Shutdown.isAboutToAsk : Shutdown → Bool
  | asking x _ => x.isNew
  | _ => false

end Instance

namespace Scene

open Instance (Exchange Answer Shutdown Start)

variable {P : Scene → Event → Prop} {s s' : Scene} {e : Event} {m : Mail} {ms : List Wire.Message}

/-! ## Asking the backend to shut down -/

/-- Nobody but a shutdown asks the backend to shut down. -/
structure LeavesAsking (s : Scene) : Prop where
  requests : ∀ x, .running x ∈ s.requests → x.method ≠ "shutdown"
  start : ∀ x y, s.start = .running x → x.phase = .handshake y → y.method ≠ "shutdown"

theorem leavesAsking_of_traced (hP : ∀ s method params, P s (.ask method params) →
    method ≠ "shutdown") (h : Traced P s m) : s.LeavesAsking := by
  refine ⟨?_, fun x y hx hp => ?_⟩
  · induction h with
    | new backend budget roots directory launch isProcess clientProcess =>
      exact fun x hx => by cases hx
    | @step s s' _ e h he ha ih =>
      intro x hx
      cases happens_of_act ha with
      | @asks method params i y hs =>
        rcases List.mem_append.mp hx with hx | hx
        · exact ih x hx
        · cases List.mem_singleton.mp hx
          obtain ⟨-, -, -, rfl⟩ := Exchange.start_ok hs
          exact hP s method params he
      | asksInVain =>
        rcases List.mem_append.mp hx with hx | hx
        · exact ih x hx
        · cases List.mem_singleton.mp hx
      | @exchanges n y i t hn hg =>
        rcases List.mem_or_eq_of_mem_set hx with hx | rfl
        · exact ih x hx
        · rw [method_of_goes (Exchange.goes_of_becomes hg)]
          exact ih y (List.mem_of_getElem? hn)
      | cancels =>
        rcases List.mem_or_eq_of_mem_set hx with hx | hx
        · exact ih x hx
        · cases hx
      | _ => exact ih x hx
  · have hasks := introduces_of_traced h x hx
    rw [hp] at hasks
    rw [show y.method = "initialize" from hasks]
    decide

/-- Only a shutdown asks the backend to shut down, when it is about to. -/
theorem Posts.isPlea (hs : s.LeavesAsking) (h : s.Posts e ms) : ms.countP (·.isPlea) = 0 ∨
    ms.countP (·.isPlea) = 1 ∧ ∃ n exited x deadline, e = .shutdown n exited ∧
      s.shutdowns[n]? = some (.running (.asking x deadline)) ∧ x.isNew = true := by
  cases h with
  | nothing | answers | closes => exact .inl rfl
  | opens => exact .inl (by simp [(Instance.isExit_announcement ..).2])
  | exchanges hn h =>
    exact h.isPlea.imp_right fun hp => absurd hp.2.1 (hs.requests _ (List.mem_of_getElem? hn))
  | starts hx h =>
    cases h with
    | nothing | greets => exact .inl rfl
    | asks hp h => exact h.isPlea.imp_right fun hm => absurd hm.2.1 (hs.start _ _ hx hp)
  | shutsDown hn h =>
    cases h with
    | nothing | exits => exact .inl rfl
    | asks h => exact h.isPlea.imp_right fun hp => ⟨hp.1, _, _, _, _, rfl, hn, hp.2.2⟩

/-- Whether a shutdown that was begun is about to ask the backend. -/
def isAboutToAsk (t : Task Shutdown Unit) : Bool := t.rest?.any Shutdown.isAboutToAsk

/-- Whether a shutdown that was begun waits for the backend to agree. -/
def isAsking (t : Task Shutdown Unit) : Bool := t.rest?.any Shutdown.isAsking

/-- Whether a shutdown that was begun has made its first step, or never will. -/
def hasLooked : Task Shutdown Unit → Bool
  | .running .begin => false
  | _ => true

/-- How often the backend was asked to shut down, or is about to be. -/
def pleas (s : Scene) : Nat := s.client.timesAsked + s.shutdowns.countP isAboutToAsk

/-- A shutdown finds the backend answering, and will ask it to shut down. -/
structure Turns (s : Scene) (e : Event) (s' : Scene) : Prop where
  looks : ∃ n exited, e = .shutdown n exited ∧ s.shutdowns[n]? = some (.running .begin) ∧
    ∃ x deadline, s'.shutdowns = s.shutdowns.set n (.running (.asking x deadline))
  alive : s.client.lifecycle.rank < 4
  pleas : s'.pleas = s.pleas + 1

/-- What a step of a shutdown does to the pleas that it makes: there is one more with its first
step, if the backend is alive, and none else. -/
theorem isAboutToAsk_of_goes {now : Time} {i j : Instance} {x : Shutdown} {t : Task Shutdown Unit}
    (h : x.Goes now i j t) : isAboutToAsk t = false ∨
      x = .begin ∧ i.lifecycle.rank < 4 ∧ isAboutToAsk t = true ∧
        ∃ y deadline, t = .running (.asking y deadline) := by
  have hclosed : ∀ y : Shutdown, y.hasClosed = true → isAboutToAsk (.running y) = false := by
    intro y hy
    cases y with
    | begin | asking => cases hy
    | _ => rfl
  cases h with
  | leaves | fails => exact .inl rfl
  | @asks x deadline j hs =>
    obtain ⟨-, hr, -, rfl⟩ := Exchange.start_ok hs
    exact .inr ⟨rfl, hr, rfl, _, _, rfl⟩
  | goesOn h => cases h <;> exact .inl rfl
  | closes hy | closesAnswered _ _ hy | closesLate hy | drains _ _ _ hy => exact .inl (hclosed _ hy)

/-- The pleas grow only when a shutdown looks that finds the backend alive. -/
theorem pleas_of_act (hs : s.LeavesAsking) (hw : s.Wired) (ha : s.act e = some s') :
    s'.pleas ≤ s.pleas ∨ s.Turns e s' := by
  obtain ⟨ms, hms, hsend⟩ := posts_of_act hw ha
  have hasked := hsend.timesAsked
  have hplea := hms.isPlea hs
  -- Whatever is no step of a shutdown queues no plea.
  have hother : (∀ n exited, e ≠ .shutdown n exited) →
      s'.shutdowns.countP isAboutToAsk ≤ s.shutdowns.countP isAboutToAsk →
      s'.pleas ≤ s.pleas ∨ s.Turns e s' := by
    intro he hle
    obtain hzero | ⟨-, n, exited, -, -, rfl, -⟩ := hplea
    · rw [hzero] at hasked
      exact .inl (by rw [pleas, pleas, hasked]; omega)
    · exact absurd rfl (he n exited)
  cases happens_of_act ha with
  | stops => exact hother (by simp) (by simp [isAboutToAsk, Task.rest?, Shutdown.isAboutToAsk])
  | leaves hn =>
    obtain ⟨k, hk, hset⟩ := exists_countP_set hn isAboutToAsk
    refine hother (by simp) ?_
    rw [hk, hset]
    exact Nat.le_add_right k _
  | @shutsDown n exited x i t hn hg =>
    obtain ⟨k, hk, hset⟩ := exists_countP_set hn isAboutToAsk
    have hgoes := Shutdown.goes_of_becomes hg
    have hle : ms.countP (·.isPlea) ≤ (isAboutToAsk (.running x)).toNat := by
      obtain hzero | ⟨hone, n', exited', y, deadline, he, hy, hnew⟩ := hplea
      · omega
      · cases he
        cases hn.symm.trans hy
        rw [hone, show isAboutToAsk (.running (.asking y deadline)) = true from hnew]
        rfl
    rcases isAboutToAsk_of_goes hgoes with ht | ⟨rfl, hr, ht, y, deadline, rfl⟩
    · refine .inl ?_
      rw [pleas, pleas, hasked, hk, hset, ht, Bool.toNat_false]
      omega
    · refine .inr ⟨⟨n, exited, rfl, hn, y, deadline, rfl⟩, hr, ?_⟩
      rw [pleas, pleas, hasked, hk, hset, ht, Bool.toNat_true]
      have hzero : (isAboutToAsk (.running .begin)).toNat = 0 := rfl
      omega
  | _ => exact hother (by simp) (Nat.le_refl _)

theorem countP_hasLooked_of_act (ha : s.act e = some s') :
    s.shutdowns.countP hasLooked ≤ s'.shutdowns.countP hasLooked := by
  have hset : ∀ {n : Nat} {t t' : Task Shutdown Unit}, s.shutdowns[n]? = some t →
      hasLooked t' = true →
      s.shutdowns.countP hasLooked ≤ (s.shutdowns.set n t').countP hasLooked := by
    intro n t t' hn ht'
    obtain ⟨k, hk, hset⟩ := exists_countP_set hn hasLooked
    rw [hk, hset, ht']
    exact Nat.add_le_add_left (Bool.toNat_le _) k
  cases happens_of_act ha with
  | stops => simp
  | leaves hn => exact hset hn rfl
  | shutsDown hn hg =>
    have hclosed : ∀ y : Shutdown, y.hasClosed = true → hasLooked (.running y) = true := by
      intro y hy
      cases y with
      | begin => cases hy
      | _ => rfl
    refine hset hn ?_
    cases Shutdown.goes_of_becomes hg with
    | leaves | asks | goesOn | fails => rfl
    | closes hy | closesAnswered _ _ hy | closesLate hy | drains _ _ _ hy => exact hclosed _ hy
  | _ => exact Nat.le_refl _

/-- Each shutdown asks the backend once at most. -/
theorem pleas_le_of_traced (hP : ∀ s method params, P s (.ask method params) →
    method ≠ "shutdown") (h : Traced P s m) : s.pleas ≤ s.shutdowns.countP hasLooked := by
  induction h with
  | new backend budget roots directory launch isProcess clientProcess => exact Nat.le_refl 0
  | @step s s' m e h _ ha ih =>
    have hlooked := countP_hasLooked_of_act ha
    rcases pleas_of_act (leavesAsking_of_traced hP h) (wired_of_reachable h.reachable) ha with
      hle | ⟨⟨n, exited, rfl, hn, x, deadline, hs⟩, -, hpleas⟩
    · omega
    · obtain ⟨k, hk, hset⟩ := exists_countP_set hn hasLooked
      rw [hpleas, hs, hset]
      rw [hk] at ih
      exact Nat.succ_le_succ ih

/-! ## Asking in turn -/

/-- The instance is stopped only once it is attached, nobody but a shutdown asks the backend to shut
down, and nobody gives up what was begun. -/
def Undisturbed (s : Scene) : Event → Prop
  | .stop => s.client.links ≠ []
  | .ask method _ => method ≠ "shutdown"
  | .cancel _ => False
  | .leave _ => False
  | _ => True

/-- No shutdown looks for the first time while another one is asking. -/
def TakesTurns (s : Scene) : Event → Prop
  | .shutdown n _ =>
    s.shutdowns[n]? = some (.running .begin) → ∀ t ∈ s.shutdowns, isAsking t = false
  | _ => True

theorem Undisturbed.seesThrough (h : s.Undisturbed e) : s.SeesThrough e := by
  cases e with
  | stop => exact h
  | leave => exact h.elim
  | _ => trivial

theorem Undisturbed.ask {method : String} {params : Option Json}
    (h : s.Undisturbed (.ask method params)) : method ≠ "shutdown" := h

theorem overseen_of_undisturbed (hP : ∀ s e, P s e → s.Undisturbed e) (h : Traced P s m) :
    s.Overseen :=
  overseen_of_reachable (fun s e he => (hP s e he).seesThrough) h.reachable

theorem hasBegun_of_attached (hw : s.Wired) (hl : s.client.links ≠ []) : s.hasBegun = true := by
  by_contra hb
  obtain ⟨x, hx, hp⟩ := phase_of_not_hasBegun (by simpa using hb)
  exact hl (hw.unattached x hx (.inl hp))

/-- An instance that was attached when it was stopped stays stopped. -/
theorem terminated_of_act (ho : s.Overseen) (hw : s.Wired) (hl : s.client.lifecycle = .terminated)
    (ha : s.act e = some s') : s'.client.lifecycle = .terminated :=
  terminated_of_rank_le hl
    (rank_le_of_hasBegun (hasBegun_of_attached hw (ho.cut hl).1) ha)

/-- Somebody waits for the backend to agree to a shutdown. -/
def SomebodyAsks (s : Scene) : Prop := ∃ t ∈ s.shutdowns, isAsking t = true

theorem SomebodyAsks.act (h : s.SomebodyAsks) (hp : s.Undisturbed e) (ha : s.act e = some s') :
    s'.SomebodyAsks ∨ s'.client.lifecycle = .terminated := by
  obtain ⟨t, ht, hasks⟩ := h
  cases happens_of_act ha with
  | stops => exact .inl ⟨t, List.mem_append_left _ ht, hasks⟩
  | leaves => exact hp.elim
  | @shutsDown n exited x i t' hn hg =>
    obtain ⟨k, hk⟩ := List.mem_iff_getElem?.mp ht
    by_cases hkn : n = k
    · subst hkn
      cases hk.symm.trans hn
      cases Shutdown.goes_of_becomes hg with
      | goesOn =>
        exact .inl ⟨_, List.mem_set (List.getElem?_eq_some_iff.mp hn).1 _, rfl⟩
      | closesAnswered | closesLate => exact .inr (Instance.lifecycle_shut _)
      | leaves | asks | closes | fails => cases hasks
      | drains _ hx => cases x <;> cases hx <;> cases hasks
    · exact .inl ⟨t, List.mem_of_getElem? ((List.getElem?_set_ne hkn).trans hk), hasks⟩
  | _ => exact .inl ⟨t, ht, hasks⟩

/-- One plea is made at most, and whoever made it waits for the backend to agree, or the input is
closed. -/
structure Single (s : Scene) : Prop where
  atMostOne : s.pleas ≤ 1
  followed : s.pleas ≠ 0 → s.SomebodyAsks ∨ s.client.lifecycle = .terminated

theorem single_of_traced (hP : ∀ s e, P s e → s.Undisturbed e ∧ s.TakesTurns e)
    (h : Traced P s m) : s.Single := by
  induction h with
  | new backend budget roots directory launch isProcess clientProcess =>
    exact ⟨Nat.zero_le 1, fun hne => absurd rfl hne⟩
  | @step s s' m e h he ha ih =>
    have hw := wired_of_reachable h.reachable
    have ho := overseen_of_undisturbed (fun s e he => (hP s e he).1) h
    have hs := leavesAsking_of_traced (fun s _ _ he => (hP s _ he).1.ask) h
    rcases pleas_of_act hs hw ha with hle | ⟨⟨n, exited, rfl, hn, x, deadline, hset⟩, hr, hpleas⟩
    · refine ⟨hle.trans ih.atMostOne, fun hne => ?_⟩
      rcases ih.followed (by omega) with hasks | hl
      · exact hasks.act (hP _ _ he).1 ha
      · exact .inr (terminated_of_act ho hw hl ha)
    · -- Nobody asks when this one looks, and the input is open: there was no plea before.
      have hzero : s.pleas = 0 := by
        by_contra hne
        rcases ih.followed hne with ⟨t, ht, hasks⟩ | hl
        · rw [(hP _ _ he).2 hn t ht] at hasks
          cases hasks
        · rw [hl] at hr
          exact absurd hr (by decide)
      refine ⟨by omega, fun _ => .inl ⟨.running (.asking x deadline), ?_, rfl⟩⟩
      rw [hset]
      exact List.mem_set (List.getElem?_eq_some_iff.mp hn).1 _

/-! ## Requests that are registered -/

/-- Somebody is at every request that is registered. -/
def Tended (s : Scene) : Prop := ∀ n ∈ s.client.pending, ∃ x ∈ s.exchanges, x.id = n

/-- What is registered after an event was so before, or somebody was at it. -/
theorem pending_of_turn {d : Mail} {t : Traffic} {xs : Multiset Exchange} (h : s.Turn e d t xs) :
    ∀ n ∈ t.pending, n ∈ s.client.pending ∨ ∃ x ∈ s.exchanges, x.id = n := by
  intro n hn
  cases h with
  | stays | begins | drops | hears | expires | reads | ignores | discards | loses => exact .inl hn
  | queues hs | misses hs =>
    refine (List.mem_append.mp hn).imp_right fun hn => ?_
    exact ⟨_, hs ▸ Multiset.mem_cons_self _ _, (List.mem_singleton.mp hn).symm⟩
  | forgets | hands => exact .inl (List.mem_of_mem_erase hn)
  | fails => cases hn

/-- A request is registered once at most, and not any more when it has its answer. -/
theorem pending_of_sound (h : s.Sound m) : s.client.pending.Nodup ∧
    ∀ n r, s.client.answers.lookup n = some r → n ∉ s.client.pending := by
  obtain ⟨hleft, -, hdisjoint⟩ := Multiset.nodup_add.mp h.places.nodup
  refine ⟨Multiset.coe_nodup.mp (Multiset.nodup_add.mp hleft).2.1, fun n r hr hn => ?_⟩
  refine Multiset.disjoint_left.mp hdisjoint (Multiset.mem_add.mpr (.inr hn)) ?_
  rcases h.posted.answers _ (Assoc.mem_of_lookup hr) with hh | ⟨f, hf, heq⟩
  · exact List.mem_append_left _ (List.mem_map_of_mem (f := (·.1)) hh)
  · have hfirst : f.1 = n := congrArg Prod.fst heq
    exact List.mem_append_right _ (hfirst ▸ List.mem_map_of_mem (f := (·.1)) hf)

/-- Whoever makes a step with a request stays at it, or it is not registered any more. -/
theorem tended_of_exchange (hs : s.Sound m) {x : Exchange} {i : Instance}
    {t : Task Exchange Answer} {rest : Multiset Exchange} (hx : s.exchanges = x ::ₘ rest)
    (h : x.Goes s.now s.client i t) (hany : ∀ n ∈ i.pending, ∃ y ∈ s.exchanges, y.id = n) :
    ∀ n ∈ i.pending, ∃ y ∈ atMost t.rest? + rest, y.id = n := by
  obtain ⟨hnodup, hanswered⟩ := pending_of_sound hs
  have hstays : (∃ y, t.rest? = some y ∧ y.id = x.id) ∨ x.id ∉ i.pending := by
    cases h with
    | queues | misses | expires => exact .inl ⟨_, rfl, rfl⟩
    | unregisters => exact .inr fun hn => (hnodup.mem_erase_iff.mp hn).1 rfl
    | hears _ hr => exact .inr (hanswered _ _ hr)
    | givesUp =>
      have htraffic := (Instance.traffic_markDegraded _).trans
        (Instance.traffic_notify (Exchange.forget s.client x.id) "$/cancelRequest"
          (some (.obj [("id", .nat x.id)])))
      have herased : _ = s.client.pending.erase x.id := congrArg Traffic.pending htraffic
      refine .inr fun hn => ?_
      have hmem : x.id ∈ s.client.pending.erase x.id := by
        rw [← herased]
        exact hn
      exact (hnodup.mem_erase_iff.mp hmem).1 rfl
  intro n hn
  obtain ⟨y, hy, rfl⟩ := hany n hn
  rw [hx] at hy
  rcases Multiset.mem_cons.mp hy with rfl | hy
  · obtain ⟨z, hz, hid⟩ := hstays.resolve_right (not_not.mpr hn)
    exact ⟨z, Multiset.mem_add.mpr (.inl (by simp [hz])), hid⟩
  · exact ⟨y, Multiset.mem_add.mpr (.inr hy), rfl⟩

/-- In a run in which nobody gives up, somebody stays at every request that is registered, until a
shutdown has closed the input and goes on. -/
theorem Tended.act (h : s.Tended) (hs : s.Sound m) (hw : s.Wired) (hp : s.Undisturbed e)
    (ha : s.act e = some s') : s'.Tended ∨ s'.IsStopping := by
  have hany : ∀ n ∈ s'.client.pending, ∃ x ∈ s.exchanges, x.id = n := fun n hn =>
    (pending_of_turn (turn_of_act hw ha) n hn).elim (h n) id
  have hgrows : (∀ x ∈ s.exchanges, x ∈ s'.exchanges) → s'.Tended ∨ s'.IsStopping := by
    refine fun hle => .inl fun n hn => ?_
    obtain ⟨x, hx, hid⟩ := hany n hn
    exact ⟨x, hle x hx, hid⟩
  -- Where no request was, there may be one now.
  have hfree : ∀ {a : Option Exchange} {rest : Multiset Exchange},
      s.exchanges = atMost none + rest → s'.exchanges = atMost a + rest →
      s'.Tended ∨ s'.IsStopping := by
    intro a rest hs hs'
    refine hgrows fun x hx => ?_
    rw [hs, atMost_none, zero_add] at hx
    exact hs' ▸ Multiset.mem_add.mpr (.inr hx)
  cases happens_of_act ha with
  | cancels | leaves => exact hp.elim
  | asks | asksInVain =>
    refine hgrows fun x hx => ?_
    rw [exchanges_append_request]
    exact Multiset.mem_add.mpr (.inr hx)
  | @exchanges n x i t hn hg =>
    obtain ⟨rest, hx, hset⟩ := exists_exchanges_request hn
    refine .inl fun k hk => ?_
    rw [hset]
    exact tended_of_exchange hs hx (Exchange.goes_of_becomes hg) hany k hk
  | @starts x i t hx hg =>
    obtain ⟨rest, hy, hset⟩ := exists_exchanges_start s
    have hset := hset i t
    rw [hx] at hy
    cases Start.goes_of_becomes hg with
    | begins hp | attaches hp | attachesInVain hp | keeps hp | confirms hp | announces hp
    | announcesInVain hp | completes hp =>
      rw [Task.rest?, Option.bind_some, Start.exchange?, hp] at hy
      exact hfree hy hset
    | comesLate hp =>
      rw [Task.rest?, Option.bind_some, Start.exchange?] at hy
      rcases hp with hp | hp <;> rw [hp] at hy <;> exact hfree hy hset
    | goesOn hp hgoes | hearsInVain hp hgoes | hears hp hgoes =>
      rw [Task.rest?, Option.bind_some, Start.exchange?, hp] at hy
      refine .inl fun k hk => ?_
      rw [hset]
      exact tended_of_exchange hs hy hgoes hany k hk
  | stops =>
    have hnone : [Task.running Shutdown.begin].filterMap
        (fun t : Task Shutdown Unit => t.rest?.bind Shutdown.exchange?) = [] := rfl
    refine hgrows fun x hx => ?_
    rw [exchanges, List.filterMap_append, hnone, List.append_nil]
    exact hx
  | @shutsDown n exited x i t hn hg =>
    obtain ⟨rest, hy, hset⟩ := exists_exchanges_shutdown hn
    have hset := hset i t
    have hstops : ∀ y, s.shutdowns.set n t = s.shutdowns.set n (.running y) →
        y.hasClosed = true → IsStopping { s with client := i, shutdowns := s.shutdowns.set n t } :=
      fun y heq hclosed =>
        ⟨n, y, heq ▸ List.getElem?_set_self (List.getElem?_eq_some_iff.mp hn).1, hclosed⟩
    cases Shutdown.goes_of_becomes hg with
    | leaves | asks => exact hfree hy hset
    | closes hclosed | closesAnswered _ _ hclosed | closesLate hclosed | drains _ _ _ hclosed =>
      exact .inr (hstops _ rfl hclosed)
    | goesOn hgoes =>
      refine .inl fun k hk => ?_
      rw [hset]
      exact tended_of_exchange hs hy hgoes hany k hk
    | fails => exact hfree hy hset
  | _ => exact hgrows fun _ hx => hx

/-! ## When all shutdowns have ended -/

/-- Whether a shutdown that was begun has seen the input closed. -/
def isPast : Task Shutdown Unit → Bool
  | .running x => x.hasClosed
  | .ended _ => true
  | .abandoned => false

/-- What is known of an instance whose shutdowns are not disturbed. -/
structure Watched (s : Scene) : Prop where
  past : ∀ t ∈ s.shutdowns, isPast t = true → s.client.lifecycle = .terminated
  outgoing : s.client.lifecycle = .terminated → s.client.outgoing = none
  pending : s.Tended ∨ s.IsStopping

theorem past_of_act (h : ∀ t ∈ s.shutdowns, isPast t = true → s.client.lifecycle = .terminated)
    (hkeeps : s.client.lifecycle = .terminated → s'.client.lifecycle = .terminated)
    (ha : s.act e = some s') :
    ∀ t ∈ s'.shutdowns, isPast t = true → s'.client.lifecycle = .terminated := by
  intro t ht hpast
  have hold : t ∈ s.shutdowns → s'.client.lifecycle = .terminated := fun ht =>
    hkeeps (h t ht hpast)
  cases happens_of_act ha with
  | stops =>
    rcases List.mem_append.mp ht with ht | ht
    · exact hold ht
    · cases List.mem_singleton.mp ht
      cases hpast
  | leaves =>
    rcases List.mem_or_eq_of_mem_set ht with ht | rfl
    · exact hold ht
    · cases hpast
  | shutsDown hn hg =>
    rcases List.mem_or_eq_of_mem_set ht with ht | rfl
    · exact hold ht
    · cases Shutdown.goes_of_becomes hg with
      | leaves hl => exact hl
      | asks | goesOn => cases hpast
      | closes | closesAnswered | closesLate => exact Instance.lifecycle_shut _
      | drains _ hclosed => exact h _ (List.mem_of_getElem? hn) hclosed
      | fails => exact h _ (List.mem_of_getElem? hn) rfl
  | _ => exact hold ht

theorem watched_of_traced (hP : ∀ s e, P s e → s.Undisturbed e) (h : Traced P s m) :
    s.Watched := by
  induction h with
  | new backend budget roots directory launch isProcess clientProcess =>
    exact ⟨fun t ht => (by cases ht), fun hl => (by cases hl), .inl fun n hn => (by cases hn)⟩
  | @step s s' m e h he ha ih =>
    have hw := wired_of_reachable h.reachable
    have ho := overseen_of_undisturbed hP h
    refine ⟨past_of_act ih.past (fun hl => terminated_of_act ho hw hl ha) ha, fun hl' => ?_, ?_⟩
    · by_cases hl : s.client.lifecycle = .terminated
      · exact outgoing_of_act hw (ho.cut hl).1 (ih.outgoing hl) ha
      · exact (closes_of_act hl hl' ha).2.1
    · rcases ih.pending with htended | hstops
      · exact htended.act (sound_of_traced h) hw (hP _ _ he) ha
      · refine (hstops.act_cases (hP _ _ he).seesThrough ha).symm.imp_left fun hnil n hn => ?_
        rw [hnil.1] at hn
        cases hn

/-- The instance is stopped, its channel is closed, nobody waits for diagnostics, and no request is
registered but those that could not be queued and are about to be taken out by whoever made them:
none at all if nobody else makes requests. -/
structure Dismissed (s : Scene) : Prop where
  lifecycle : s.client.lifecycle = .terminated
  outgoing : s.client.outgoing = none
  subscriptions : s.client.collector.subscriptions = []
  registered : ∀ n ∈ s.client.pending, ∃ x ∈ s.exchanges, x.id = n ∧ ∃ f, x.phase = .unregister f
  pending : (∀ t ∈ s.requests, t.rest? = none) → s.start.rest? = none → s.client.pending = []

theorem exchanges_of_ended (hs : ∀ t ∈ s.shutdowns, t = .ended ())
    (hr : ∀ t ∈ s.requests, t.rest? = none) (hstart : s.start.rest? = none) :
    s.exchanges = 0 := by
  have hrequests : s.requests.filterMap Task.rest? = [] := List.filterMap_eq_nil_iff.mpr hr
  have hshutdowns : s.shutdowns.filterMap (fun t => t.rest?.bind Shutdown.exchange?) = [] :=
    List.filterMap_eq_nil_iff.mpr fun t ht => by rw [hs t ht]; rfl
  rw [exchanges, hrequests, hshutdowns, hstart]
  rfl

theorem subscriptions_of_settled (h : s.Settled) : s.client.collector.subscriptions = [] := by
  refine List.eq_nil_iff_forall_not_mem.mpr fun entry hentry => ?_
  obtain ⟨sub, hsub⟩ := Assoc.exists_lookup_of_mem hentry
  cases hsub.symm.trans (h.subscriptions entry.1)

theorem dismissed_of_traced (hP : ∀ s e, P s e → s.Undisturbed e) (h : Traced P s m)
    (hne : s.shutdowns ≠ []) (hs : ∀ t ∈ s.shutdowns, t = .ended ()) : s.Dismissed := by
  have hstops : ¬ s.IsStopping := by
    rintro ⟨n, x, hn, -⟩
    cases hs _ (List.mem_of_getElem? hn)
  have hwatched := watched_of_traced hP h
  obtain ⟨t, ht⟩ := List.exists_mem_of_ne_nil _ hne
  have hl := hwatched.past t ht (by rw [hs t ht]; rfl)
  have hsettled := ((overseen_of_undisturbed hP h).settled hl).resolve_left hstops
  have htended := hwatched.pending.resolve_right hstops
  refine ⟨hl, hwatched.outgoing hl, subscriptions_of_settled hsettled, fun n hn => ?_,
    fun hr hstart => List.eq_nil_iff_forall_not_mem.mpr fun n hn => ?_⟩
  · obtain ⟨x, hx, rfl⟩ := htended n hn
    exact ⟨x, hx, rfl, hsettled.pending x hx hn⟩
  · obtain ⟨x, hx, -⟩ := htended n hn
    rw [exchanges_of_ended hs hr hstart] at hx
    cases hx

/-! ## Dismissal -/

/-- **Dismissal.** In every run the backend is told to exit once at most, and only when it has
agreed to a request to shut down. If the instance is stopped only once it is attached, nobody else
asks for a shutdown, and nobody gives up, then each shutdown asks the backend once at most, and all
together do if none looks while another is asking; and when all have ended, the instance is stopped,
its channel is closed, and nobody waits. -/
theorem dismissal_of_traced (h : Traced P s m) :
    (s.client.timesTold ≤ 1 ∧ (s.client.timesTold ≠ 0 → s.HasAgreed m)) ∧
    ((∀ s e, P s e → s.Undisturbed e) →
      s.client.timesAsked ≤ s.shutdowns.length ∧
      ((∀ s e, P s e → s.TakesTurns e) → s.client.timesAsked ≤ 1) ∧
      (s.shutdowns ≠ [] → (∀ t ∈ s.shutdowns, t = .ended ()) → s.Dismissed)) := by
  refine ⟨?_, fun hP => ⟨?_, fun hturns => ?_, dismissed_of_traced hP h⟩⟩
  · rcases parted_of_traced h with hzero | hp
    · exact ⟨hzero ▸ Nat.zero_le 1, fun hne => absurd hzero hne⟩
    · exact ⟨hp.once.le, fun _ => hp.agreed⟩
  · have hle := pleas_le_of_traced (fun s _ _ he => (hP s _ he).ask) h
    calc s.client.timesAsked ≤ s.pleas := Nat.le_add_right _ _
      _ ≤ s.shutdowns.countP hasLooked := hle
      _ ≤ s.shutdowns.length := List.countP_le_length
  · have hsingle := single_of_traced (fun s e he => ⟨hP s e he, hturns s e he⟩) h
    exact (Nat.le_add_right _ _).trans hsingle.atMostOne

/-- A step of the shutdown with a number. -/
def pressing (n : Nat) : Event := .shutdown n fun _ => true

/-- The backend agrees to the request with a number. -/
def agreeing (n : Nat) : List Event :=
  [.receive (.response (.success (.number n) .null)), .read]

/-- Two shutdowns ask the backend before it agrees to either. -/
def overlapping : List Event :=
  [pressing 0, pressing 1, pressing 0, pressing 1] ++ agreeing 2 ++ [pressing 0] ++ agreeing 3 ++
    [pressing 1]

/-- What is queued is written, and both shutdowns come to their end. -/
def parting : List Event :=
  [.take, .written, .take, .written, .take, .written, .take, .written, .take, .written, .finish,
    pressing 0, pressing 0, pressing 0, pressing 1, pressing 1]

def released : Scene × Mail :=
  (sample.follow {} (readying ++ [.stop, .stop] ++ overlapping ++ parting)).getD (sample, {})

/-- Two shutdowns that overlap both ask the backend, and one tells it to exit; a shutdown that looks
while none is asking is the only one to ask. -/
theorem dismissal_of_traced_released :
    (released.1.client.timesAsked = 2 ∧ released.1.client.timesTold = 1 ∧
      released.1.HasAgreed released.2 ∧ released.1.Dismissed) ∧
    ∃ s m, Traced (fun s e => s.Undisturbed e ∧ s.TakesTurns e) s m ∧
      s.client.timesAsked = 1 ∧ s.client.timesAsked ≤ 1 := by
  have hready : ∃ s m, sample.follow {} readying = some (s, m) ∧ s.client.links ≠ [] ∧
      ∃ s₁, s.act .stop = some s₁ ∧
        (s₁.client.links ≠ [] ∧ ∃ s₂, s₁.act .stop = some s₂ ∧
          s₂.follow (m ++ s.mail .stop ++ s₁.mail .stop) (overlapping ++ parting) =
            some released) ∧
        (∀ t ∈ s₁.shutdowns, isAsking t = false) ∧
          ∃ s₂, s₁.act (pressing 0) = some s₂ ∧ s₂.shutdowns[0]?.all hasLooked = true ∧
            ∃ s₃, s₂.act (pressing 0) = some s₃ ∧ s₃.client.timesAsked = 1 :=
    ⟨_, _, by rfl, by decide, _, rfl, ⟨by decide, _, rfl, by rfl⟩, by decide, _, rfl, rfl, _, rfl,
      rfl⟩
  obtain ⟨s, m, hrun, hlinks, s₁, h₁, ⟨hlinks₁, s₂, h₂, hrest⟩, hquiet, t₂, ht₂, hlooked, t₃, ht₃,
    hone⟩ := hready
  have hstopped : ∀ P : Scene → Event → Prop, (∀ s, ∀ e ∈ readying, P s e) → P s .stop →
      Traced P s₁ (m ++ s.mail .stop) := fun P hP hstop =>
    (Traced.follow (.new _ _ _ _ _ _ _) hP hrun).step hstop h₁
  have hturned := ((hstopped (fun s e => s.Undisturbed e ∧ s.TakesTurns e)
      (fun _ => by simp [readying, connecting, Undisturbed, TakesTurns]) ⟨hlinks, trivial⟩).step
        (e := pressing 0) ⟨trivial, fun _ => hquiet⟩ ht₂).step
    (e := pressing 0) ⟨trivial, fun hbegin => by rw [hbegin] at hlooked; cases hlooked⟩ ht₃
  have hreleased : Traced Undisturbed released.1 released.2 :=
    Traced.follow ((hstopped Undisturbed
        (fun _ => by simp [readying, connecting, Undisturbed]) hlinks).step (e := .stop) hlinks₁ h₂)
      (fun _ => by simp [overlapping, parting, agreeing, pressing, Undisturbed]) hrest
  obtain ⟨⟨-, hagreed⟩, hdismissed⟩ := dismissal_of_traced hreleased
  have htold : released.1.client.timesTold = 1 := by rfl
  have hended : released.1.shutdowns = [.ended (), .ended ()] := by rfl
  exact ⟨⟨by rfl, htold, hagreed (by rw [htold]; decide),
      (hdismissed fun _ _ => id).2.2 (by rw [hended]; simp) (by rw [hended]; simp)⟩,
    t₃, _, hturned, hone, ((dismissal_of_traced hturned).2 fun _ _ h => h.1).2.1 fun _ _ h => h.2⟩

end Scene

end DiagnosticBroker
