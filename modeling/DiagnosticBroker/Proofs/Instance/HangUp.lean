import DiagnosticBroker.Proofs.Instance.Lifecycle

/-!
# The closed channel

Whoever stops an instance closes the channel on which its frames are queued. Only a link that is new
opens it, and an instance is attached once: what is closed stays closed.

Results:
* `Goes.outgoing`: requests, shutdowns and starts leave a closed channel closed.
* `outgoing_of_act`: so does every event on an attached instance.
-/

namespace DiagnosticBroker

open Scene (send_of_outgoing openDocument_of_outgoing closeDocument_of_outgoing)

namespace Instance

variable {i j : Instance} {now : Time}

@[simp]
theorem outgoing_markDegraded (i : Instance) : i.markDegraded.outgoing = i.outgoing := by
  unfold markDegraded
  cases i.lifecycle <;> rfl

theorem outgoing_send (ho : i.outgoing = none) (m : Wire.Message) :
    (i.send m).1.outgoing = none := by
  rw [send_of_outgoing ho]
  exact ho

/-! ## Requests, shutdowns and starts -/

theorem Exchange.outgoing_of_start {method : String} {params : Option Json}
    {r : Except Fault Exchange} (h : Exchange.start i method params = (j, r)) :
    j.outgoing = i.outgoing := by
  obtain ⟨-, hs⟩ | ⟨-, hs⟩ | ⟨-, -, hs⟩ := start_cases i method params <;>
    cases hs.symm.trans h <;> rfl

theorem Exchange.Goes.outgoing {x : Exchange} {t : Task Exchange Answer} (h : x.Goes now i j t)
    (ho : i.outgoing = none) : j.outgoing = none := by
  cases h with
  | queues | misses =>
    exact outgoing_send (i := { i with pending := i.pending ++ [x.id] }) ho _
  | unregisters | hears | expires => exact ho
  | givesUp =>
    rw [outgoing_markDegraded]
    exact outgoing_send (i := forget i x.id) ho _

theorem Shutdown.Goes.outgoing {x : Shutdown} {t : Task Shutdown Unit} (h : x.Goes now i j t)
    (ho : i.outgoing = none) : j.outgoing = none := by
  cases h with
  | leaves | drains | fails => exact ho
  | asks h => exact (Exchange.outgoing_of_start h).trans ho
  | goesOn h => exact h.outgoing ho
  | closes | closesAnswered | closesLate => exact outgoing_shut _

/-- A start that is past its attachment leaves a closed channel closed. -/
theorem Start.Goes.outgoing {x : Start} {t : Task Start (Except Fault Unit)}
    (h : x.Goes now i j t) (hp : x.phase ≠ .attach) (ho : i.outgoing = none) :
    j.outgoing = none := by
  cases h with
  | begins => exact ho
  | attaches hp' | attachesInVain hp' => exact absurd hp' hp
  | goesOn _ h | hearsInVain _ h | hears _ h => exact h.outgoing ho
  | keeps | confirms | completes | comesLate => exact ho
  | announces | announcesInVain => exact outgoing_send ho _

/-! ## The reader and the writer -/

theorem outgoing_takeNotification (i : Instance) (now : Time) (n : Wire.Notification) :
    (i.takeNotification now n).outgoing = i.outgoing := by
  unfold takeNotification
  simp only
  split_ifs
  · unfold takePublish
    split
    · rfl
    · split <;> rfl
  · unfold takeLogLine
    split <;> rfl
  · rfl

theorem outgoing_receive (ho : i.outgoing = none) (now : Time) (k : Nat) (m : Wire.Message) :
    (i.receive now k m).outgoing = none := by
  cases m with
  | request => exact outgoing_send ho _
  | notification n => exact (outgoing_takeNotification i now n).trans ho
  | response r =>
    rw [receive]
    split <;> exact ho

theorem outgoing_loseStream (i : Instance) (k : Nat) : (i.loseStream k).outgoing = i.outgoing := by
  unfold loseStream
  split_ifs
  · rfl
  · exact outgoing_markDegraded i

theorem outgoing_deliver (i : Instance) (id : Wire.Id) (r : Wire.Response) :
    (i.deliver id r).outgoing = i.outgoing := by
  unfold deliver
  split <;> rfl

theorem outgoing_failWriter (i : Instance) (k : Nat) : (i.failWriter k).outgoing = i.outgoing := by
  unfold failWriter
  split_ifs
  · rfl
  · exact outgoing_markDegraded i

end Instance

/-! ## Events -/

namespace Scene

open Instance (Exchange Shutdown Start)

variable {s s' : Scene} {e : Event}

/-- Once the channel of an attached instance is closed, it stays closed. -/
theorem outgoing_of_act (hw : s.Wired) (hl : s.client.links ≠ []) (ho : s.client.outgoing = none)
    (ha : s.act e = some s') : s'.client.outgoing = none := by
  cases happens_of_act ha with
  | elapses | cancels | stops | leaves | waits | looks | turnsAway => exact ho
  | drops | takes | writes | failsFrames | finishes | abandons => exact ho
  | starts hx h =>
    refine (Start.goes_of_becomes h).outgoing (fun hp => ?_) ho
    exact hl (hw.unattached _ hx (.inr hp))
  | asks h | asksInVain h => exact (Exchange.outgoing_of_start h).trans ho
  | exchanges _ h => exact (Exchange.goes_of_becomes h).outgoing ho
  | shutsDown _ h => exact (Shutdown.goes_of_becomes h).outgoing ho
  | @opens uri languageId text _ _ _ h =>
    obtain ⟨c, hc⟩ := openDocument_of_outgoing ho s.now uri languageId text
    cases hc.symm.trans h
  | @opensInVain uri languageId text _ _ h =>
    obtain ⟨c, hc⟩ := openDocument_of_outgoing ho s.now uri languageId text
    cases hc.symm.trans h
    exact ho
  | @closes uri i _ h =>
    obtain ⟨ds, hds⟩ := closeDocument_of_outgoing ho uri
    rw [h] at hds
    exact (congrArg Instance.outgoing hds).trans ho
  | receives => exact Instance.outgoing_receive ho s.now 0 _
  | loses => exact (Instance.outgoing_loseStream s.client 0).trans ho
  | @delivers _ id r => exact (Instance.outgoing_deliver s.client id r).trans ho
  | fails => exact (Instance.outgoing_failWriter s.client 0).trans ho

end Scene

end DiagnosticBroker
