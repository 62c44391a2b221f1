import DiagnosticBroker.Proofs.Collector.Revisions
import DiagnosticBroker.Proofs.Instance.Holdings

/-!
# What becomes of the channels of an instance

Of all that happens to an instance, only openings, publishes, waiters that are given back, and the
loss of the backend reach its collector, and each of these keeps track of what waiters see.

Results:
* `Serviced.tracks`, `tracks_openDocument`: what starts, shutdowns and the operations of callers do.
* `Scene.tracks_act`: what happens beside a start.
-/

namespace DiagnosticBroker

open Collector (Tracks)

namespace Instance

variable {i j : Instance} {now : Time} {uri languageId text : String}

/-! ## Starts and shutdowns -/

theorem tracks_of_eq (hi : i.collector.Grounded) (h : j.collector = i.collector) :
    Tracks i.collector j.collector := by
  rw [h]
  exact .refl hi

/-- A shutdown leaves the collector alone or ends the subscriptions. -/
theorem tracks_shutdown (hi : i.collector.Grounded) (exited : Nat → Bool) (now : Time)
    (s : Shutdown) : (s.step exited now i).Leads fun j => Tracks i.collector j.collector := by
  refine (stops_shutdown exited now i s).mono fun j hj => ?_
  rcases hj.collector with hc | hc
  · exact tracks_of_eq hi hc
  · rw [hc]
    exact Collector.tracks_disconnect _

/-- Starts and shutdowns keep track. -/
theorem Serviced.tracks (h : i.Serviced j) (hi : i.collector.Grounded) :
    Tracks i.collector j.collector := by
  cases h with
  | starts h => exact tracks_of_eq hi ((passes_start ..).becomes h).collector
  | stops h => exact (tracks_shutdown hi ..).becomes h

/-! ## Documents -/

/-- Whoever opens a document gets a channel. -/
theorem tracks_of_opens {version : Int} {waiter : Waiter} (hi : i.collector.Grounded)
    (h : Opens i now uri j version waiter) :
    Tracks i.collector j.collector ∧ waiter.subscription < j.collector.channels.length :=
  Collector.tracks_register hi h.registered

theorem tracks_of_refuses {fault : Fault} (hi : i.collector.Grounded)
    (h : Refuses i now uri j fault) : Tracks i.collector j.collector := by
  have hregistered : i.registration now uri =
    ((i.registration now uri).1, (i.registration now uri).2) := rfl
  have hregister := (Collector.tracks_register hi hregistered).1
  rw [h.collector]
  exact hregister.trans (Collector.tracks_release hregister.grounded _)

/-- Opening a document keeps track, whether it succeeds or not. -/
theorem tracks_openDocument (hi : i.collector.Grounded) (now : Time)
    (uri languageId text : String) :
    Tracks i.collector (i.openDocument now uri languageId text).1.collector := by
  cases h : i.openDocument now uri languageId text with
  | mk j r =>
    cases r with
    | ok v => exact (tracks_of_opens hi (opens_of_openDocument h)).1
    | error f => exact tracks_of_refuses hi (refuses_of_openDocument h)

theorem collector_closeDocument (i : Instance) (uri : String) :
    (i.closeDocument uri).1.collector = i.collector := by
  have hclose : i.closeDocument uri = ((i.closeDocument uri).1, (i.closeDocument uri).2) := rfl
  exact (closes_of_closeDocument hclose).collector

/-! ## Messages -/

theorem tracks_takeNotification (hi : i.collector.Grounded) (now : Time) (n : Wire.Notification) :
    Tracks i.collector (i.takeNotification now n).collector := by
  unfold takeNotification
  simp only
  split_ifs
  · unfold takePublish
    split
    · exact Collector.tracks_publish hi now _
    · split
      · exact Collector.tracks_reject hi _ _ _
      · exact .refl hi
  · unfold takeLogLine
    split <;> exact .refl hi
  · exact .refl hi

theorem tracks_receive (hi : i.collector.Grounded) (now : Time) (k : Nat) (m : Wire.Message) :
    Tracks i.collector (i.receive now k m).collector := by
  cases m with
  | request r => exact tracks_of_eq hi (collector_send i _)
  | notification n => exact tracks_takeNotification hi now n
  | response r =>
    simp only [receive]
    split <;> exact .refl hi

theorem collector_loseStream (i : Instance) (k : Nat) :
    (i.loseStream k).collector = i.collector := by
  unfold loseStream
  split_ifs
  · rfl
  · exact collector_markDegraded i

theorem collector_failWriter (i : Instance) (k : Nat) :
    (i.failWriter k).collector = i.collector := by
  unfold failWriter
  split_ifs
  · rfl
  · exact collector_markDegraded i

theorem tracks_readerStep (hi : i.collector.Grounded) (k : Nat) (r : Reading) :
    Tracks i.collector (i.readerStep k r).collector := by
  cases r with
  | idle | ended => exact .refl hi
  | losing => exact Collector.tracks_disconnect _
  | delivering id r => exact tracks_of_eq hi (aside_deliver i id r).collector

end Instance

/-! ## What happens beside a start -/

/-- **Tracking.** Whatever happens beside a start keeps track of what waiters see. -/
theorem Scene.tracks_act {s s' : Scene} {e : Scene.Event} (hs : s.start = .abandoned)
    (hg : s.client.collector.Grounded) (ha : s.act e = some s') :
    Tracks s.client.collector s'.client.collector := by
  have hdoes := does_of_act (ne_start_of_act hs ha) ha
  generalize s'.client = i at hdoes ⊢
  cases hdoes with
  | keeps | takes | writes => exact .refl hg
  | asks method params =>
    exact Instance.tracks_of_eq hg (Instance.aside_beginExchange ..).collector
  | exchanges h =>
    exact Instance.tracks_of_eq hg ((Instance.aside_exchange ..).becomes h).collector
  | shutsDown h => exact (Instance.tracks_shutdown hg ..).becomes h
  | opens => exact Instance.tracks_openDocument hg ..
  | closes => exact Instance.tracks_of_eq hg (Instance.collector_closeDocument ..)
  | drops w => exact Collector.tracks_release hg w
  | receives m => exact Instance.tracks_receive hg ..
  | loses => exact Instance.tracks_of_eq hg (Instance.collector_loseStream ..)
  | reads r => exact Instance.tracks_readerStep hg ..
  | fails => exact Instance.tracks_of_eq hg (Instance.collector_failWriter ..)
  | failsFrames => exact Collector.tracks_disconnect _

end DiagnosticBroker
