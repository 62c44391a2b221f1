import DiagnosticBroker.Proofs.Instance.Lifecycle
import DiagnosticBroker.Proofs.Instance.Posts

/-!
# Parting from a backend

A shutdown asks a backend that still answers to shut down, tells it to exit if it agrees, and closes
its input. What is told last is the exit: whoever tells it closes the input in the same step.

Results:
* `Posts.isExit`: only a shutdown tells the backend to exit, when the backend agrees to its request.
* `parted_of_traced`: the backend is told to exit once at most, and only after it has agreed.
-/

namespace DiagnosticBroker

/-! ## Frames that ask and frames that tell -/

/-- Whether a frame asks the backend to shut down. -/
def Wire.Message.isPlea : Wire.Message → Bool
  | .request r => r.method = "shutdown"
  | _ => false

/-- Whether a frame tells the backend to exit. -/
def Wire.Message.isExit : Wire.Message → Bool
  | .notification n => n.method = "exit"
  | _ => false

namespace Instance

variable {i j : Instance} {ms : List Wire.Message} {now : Time}

/-- How often the backend was asked to shut down. -/
def timesAsked (i : Instance) : Nat := i.queued.countP (·.isPlea)

/-- How often it was told to exit. -/
def timesTold (i : Instance) : Nat := i.queued.countP (·.isExit)

theorem Sends.timesAsked (h : i.Sends ms j) : j.timesAsked = i.timesAsked + ms.countP (·.isPlea) := by
  rw [Instance.timesAsked, h.queued, List.countP_append]
  rfl

theorem Sends.timesTold (h : i.Sends ms j) : j.timesTold = i.timesTold + ms.countP (·.isExit) := by
  rw [Instance.timesTold, h.queued, List.countP_append]
  rfl

theorem Exchange.Posts.isExit {x : Exchange} (h : x.Posts i ms) : ms.countP (·.isExit) = 0 := by
  cases h <;> simp [Wire.Message.isExit, cancellation, Wire.Notification.new]

/-- A request asks the backend to shut down only if it is about to be queued and made for that. -/
theorem Exchange.Posts.isPlea {x : Exchange} (h : x.Posts i ms) :
    ms.countP (·.isPlea) = 0 ∨
      ms.countP (·.isPlea) = 1 ∧ x.method = "shutdown" ∧ x.isNew = true := by
  cases h with
  | nothing | cancels => exact .inl rfl
  | request hp =>
    by_cases hm : x.method = "shutdown"
    · exact .inr ⟨by simp [Wire.Message.isPlea, Wire.Request.new, hm], hm, by rw [isNew, hp]⟩
    · exact .inl (by simp [Wire.Message.isPlea, Wire.Request.new, hm])

theorem isExit_announcement (uri languageId text : String) (version : Int) (isOpen : Bool) :
    (announcement uri languageId text version isOpen).isExit = false ∧
      (announcement uri languageId text version isOpen).isPlea = false := by
  unfold announcement
  split_ifs <;> exact ⟨by simp [Wire.Message.isExit, Wire.Notification.new, Wire.DidChange.method,
    Wire.DidOpen.method], rfl⟩

theorem isExit_closing (uri : String) : (closing uri).isExit = false := by
  simp [closing, Wire.Message.isExit, Wire.Notification.new, Wire.DidClose.method]

/-- A shutdown whose request has ended closes the input. -/
theorem Shutdown.outgoing_of_ended {x : Exchange} {deadline : Time} {a : Answer} {k : Instance}
    {t : Task Shutdown Unit} (hx : x.Goes now i j (.ended a))
    (h : Shutdown.Goes now i (.asking x deadline) k t) : k.outgoing = none := by
  cases h with
  | closesAnswered | closesLate => exact outgoing_shut _
  | goesOn h =>
    generalize ht : (Task.ended a : Task Exchange Answer) = t at hx
    cases hx with
    | queues | misses | expires => cases ht
    | unregisters hp | givesUp hp => cases h <;> cases hp.symm.trans ‹_›
    | hears hp hr =>
      cases h with
      | queues hp' | misses hp' => cases hp.symm.trans hp'
      | expires _ hr' => cases hr.symm.trans hr'
  | drains _ hs => cases hs

end Instance

namespace Scene

open Instance (Exchange Answer Shutdown Start farewell)

variable {P : Scene → Event → Prop} {s s' : Scene} {e : Event} {m : Mail} {ms : List Wire.Message}

/-! ## What requests are made for -/

/-- A shutdown makes its request to shut the backend down. -/
theorem method_of_traced (h : Traced P s m) {x : Exchange} {deadline : Time}
    (hx : .running (.asking x deadline) ∈ s.shutdowns) :
    x.method = "shutdown" ∧ x.params = none := by
  induction h generalizing x deadline with
  | new backend budget roots directory launch isProcess clientProcess => cases hx
  | @step s s' _ e _ _ ha ih =>
    cases happens_of_act ha with
    | stops =>
      rcases List.mem_append.mp hx with hx | hx
      · exact ih hx
      · cases List.mem_singleton.mp hx
    | leaves =>
      rcases List.mem_or_eq_of_mem_set hx with hx | hx
      · exact ih hx
      · cases hx
    | @shutsDown n exited y i t hn hg =>
      rcases List.mem_or_eq_of_mem_set hx with hx | rfl
      · exact ih hx
      · cases Shutdown.goes_of_becomes hg with
        | asks hs =>
          obtain ⟨-, -, -, rfl⟩ := Exchange.start_ok hs
          exact ⟨rfl, rfl⟩
        | goesOn hgoes =>
          have hy := ih (List.mem_of_getElem? hn)
          cases hgoes <;> exact hy
        | closes hy | closesAnswered _ _ hy | closesLate hy | drains _ _ _ hy => cases hy
    | _ => exact ih hx

/-! ## Telling the backend to exit -/

/-- Only a shutdown tells the backend to exit, and only when the backend has agreed. -/
theorem Posts.isExit (h : s.Posts e ms) : ms.countP (·.isExit) = 0 ∨
    ms = [farewell] ∧ s.client.canSend = true ∧ ∃ n exited x deadline i v,
      e = .shutdown n exited ∧ s.shutdowns[n]? = some (.running (.asking x deadline)) ∧
        x.Goes s.now s.client i (.ended (.ok v)) := by
  cases h with
  | nothing | answers => exact .inl rfl
  | closes => exact .inl (by simp [Instance.isExit_closing])
  | opens => exact .inl (by simp [(Instance.isExit_announcement ..).1])
  | exchanges _ h => exact .inl h.isExit
  | starts _ h =>
    cases h with
    | nothing => exact .inl rfl
    | asks _ h => exact .inl h.isExit
    | greets => exact .inl (by decide)
  | @shutsDown n exited _ _ hn h =>
    cases h with
    | nothing => exact .inl rfl
    | asks h => exact .inl h.isExit
    | @exits x deadline i v hx hc =>
      refine .inr ⟨rfl, ?_, n, exited, x, deadline, i, v, rfl, hn, hx⟩
      generalize ht : (Task.ended (.ok v) : Task Exchange Answer) = t at hx
      cases hx with
      | queues | misses | expires | unregisters | givesUp => cases ht
      | hears => exact (Instance.canSend_congr rfl rfl).symm.trans hc

/-- The backend was asked to shut down, a response was read and handed to that request by which it
agrees, and after that it was told to exit. -/
def HasAgreed (s : Scene) (m : Mail) : Prop :=
  ∃ n w v, w ∈ m.arrived ∧ (n, w) ∈ m.handed ∧ w.outcome = .ok v ∧
    [.request (.new n "shutdown" none), farewell].Sublist s.client.queued

/-- The backend was told to exit once, after it had agreed to shut down, and nothing can be queued
any more. -/
structure Parted (s : Scene) (m : Mail) : Prop where
  once : s.client.timesTold = 1
  cut : s.client.IsCut
  agreed : s.HasAgreed m

/-- Telling the backend to exit is the last that is queued. -/
theorem parts_of_exit (h : Traced P s m) {n : Nat} {exited : Nat → Bool} {x : Exchange}
    {deadline : Time} {i : Instance} {v : Json} (ha : s.act (.shutdown n exited) = some s')
    (hsend : s.client.Sends [farewell] s'.client) (htold : s.client.timesTold = 0)
    (hn : s.shutdowns[n]? = some (.running (.asking x deadline)))
    (hx : x.Goes s.now s.client i (.ended (.ok v))) :
    s'.Parted (m ++ s.mail (.shutdown n exited)) := by
  obtain ⟨w, hw, ho, hasked⟩ :=
    handed_of_goes (sound_of_traced h) (mem_exchanges_of_shutdown hn) hx
  obtain ⟨hmethod, hparams⟩ := method_of_traced h (List.mem_of_getElem? hn)
  rw [hmethod, hparams] at hasked
  obtain ⟨frame, hmem, hframe⟩ := List.mem_filterMap.mp hasked
  have hframe' : frame = .request (.new x.id "shutdown" none) := by
    cases frame <;> cases hframe
    rfl
  subst hframe'
  have hlinks : s.client.links ≠ [] := by
    rintro hnil
    simp [Instance.queued, hnil] at hmem
  have hout : s'.client.outgoing = none := by
    cases happens_of_act ha with
    | shutsDown hn' hg =>
      cases hn.symm.trans hn'
      exact Shutdown.outgoing_of_ended hx (Shutdown.goes_of_becomes hg)
  have harrived : w ∈ m.arrived := (sound_of_traced h).posted.delivered.subset
    (List.mem_append_left _ (List.mem_map_of_mem (f := (·.2)) hw))
  refine ⟨?_, ⟨?_, by rw [Instance.canSend, hout]⟩, x.id, w, v,
    List.mem_append_left _ harrived, List.mem_append_left _ hw, ho, ?_⟩
  · rw [hsend.timesTold, htold]
    rfl
  · exact attached_of_effect (effect_of_act (wired_of_reachable h.reachable) ha) hlinks
  · rw [hsend.queued]
    exact (List.singleton_sublist.mpr hmem).append (List.Sublist.refl _)

/-- **Parting.** The backend is told to exit once at most, and only after it has agreed. -/
theorem parted_of_traced (h : Traced P s m) : s.client.timesTold = 0 ∨ s.Parted m := by
  induction h with
  | new backend budget roots directory launch isProcess clientProcess => exact .inl rfl
  | @step s s' m e h _ ha ih =>
    have hwired := wired_of_reachable h.reachable
    obtain ⟨ms, hms, hsend⟩ := posts_of_act hwired ha
    obtain hzero | ⟨rfl, hc, n, exited, x, deadline, i, v, rfl, hn, hx⟩ := hms.isExit
    · have htold := hsend.timesTold
      rw [hzero] at htold
      refine ih.imp htold.trans fun hp => ?_
      obtain ⟨n, w, v, harrived, hw, ho, hq⟩ := hp.agreed
      refine ⟨htold.trans hp.once, cut_of_effect (effect_of_act hwired ha) hp.cut, n, w, v,
        List.mem_append_left _ harrived, List.mem_append_left _ hw, ho, ?_⟩
      rw [hsend.queued]
      exact hq.trans (List.sublist_append_left _ _)
    · refine .inr (parts_of_exit h ha hsend (ih.resolve_right fun hp => ?_) hn hx)
      exact Instance.not_isCut hc hp.cut

end Scene

end DiagnosticBroker
