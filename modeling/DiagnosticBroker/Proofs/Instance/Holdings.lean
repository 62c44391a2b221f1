import DiagnosticBroker.Proofs.Instance.Events

/-!
# What leaves the documents of an instance alone

Documents are opened and closed by callers, and by nothing else: the start of an instance, its
shutdown, its requests, and whatever its reader and its writer do leave the record of open documents as
it is.

Results:
* `passes_start`: a start leaves documents and diagnostics alone.
* `Serviced.documents`: starts and shutdowns leave the documents alone.
* `Scene.documents_of_act`: what happens beside a start leaves them alone, too.
-/

namespace DiagnosticBroker

namespace Instance

variable {i j k : Instance}

/-- The documents and their diagnostics are left alone. -/
structure Passes (i j : Instance) : Prop where
  documents : j.documents = i.documents
  collector : j.collector = i.collector

theorem Passes.trans (h : Passes i j) (h' : Passes j k) : Passes i k where
  documents := h'.documents.trans h.documents
  collector := h'.collector.trans h.collector

theorem Aside.passes (h : Aside i j) : Passes i j := ⟨h.documents, h.collector⟩

theorem passes_connect (i : Instance) (launch : Nat) : Passes i (i.connect launch) := by
  unfold connect
  cases i.outgoing <;> exact ⟨rfl, rfl⟩

theorem passes_advance {a b : Lifecycle} (h : i.advance a b = .ok j) : Passes i j := by
  obtain ⟨-, rfl⟩ := eq_of_advance h
  exact ⟨rfl, rfl⟩

theorem passes_send (i : Instance) (m : Wire.Message) : Passes i (i.send m).1 :=
  ⟨documents_send i m, collector_send i m⟩

/-- A start leaves the documents and their diagnostics alone. -/
theorem passes_start (now : Time) (i : Instance) (s : Start) :
    (s.step now i).Leads fun j => Passes i j := by
  unfold Start.step
  cases s.phase with
  | begin => exact ⟨rfl, rfl⟩
  | attach =>
    have hprocess : Passes i { i with process := if s.isProcess then some s.launch else none } :=
      ⟨rfl, rfl⟩
    have hc := hprocess.trans (passes_connect _ s.launch)
    generalize hj : ({ i with
      process := if s.isProcess then some s.launch else none } : Instance).connect s.launch = j
      at hc
    have hx := aside_beginExchange j "initialize"
      (some (j.introduction s.clientProcess).encode.canonical)
    simp only [Start.attach, hj]
    split <;> rename_i heq <;> rw [heq] at hx
    · exact hc.trans hx.passes
    · exact hc.trans hx.passes
  | handshake x =>
    refine (aside_exchange now i x).within (fun _ h => h.passes) fun j a hj => ?_
    cases a with
    | error f => exact hj.passes
    | ok r =>
      simp only [Start.answered]
      split <;> exact hj.passes
  | record r => exact ⟨rfl, rfl⟩
  | confirm | complete =>
    simp only
    split
    · rename_i j hj
      exact passes_advance hj
    · exact ⟨rfl, rfl⟩
  | announce =>
    have hn := passes_send i (.notification (.new "initialized" (some (.obj []))))
    simp only
    split <;> rename_i heq <;> rw [notify] at heq <;> rw [heq] at hn
    · exact hn
    · exact hn

/-- What is done to an instance by its start, or by somebody who stops it. -/
inductive Serviced (x y : Instance) : Prop where
  | starts {now : Time} {s : Start} {t : Task Start (Except Fault Unit)}
      (h : (s.step now x).Becomes y t)
  | stops {exited : Nat → Bool} {now : Time} {s : Shutdown} {t : Task Shutdown Unit}
      (h : (s.step exited now x).Becomes y t)

/-- Starts and shutdowns leave the documents alone. -/
theorem Serviced.documents (h : i.Serviced j) : j.documents = i.documents := by
  cases h with
  | starts h => exact ((passes_start ..).becomes h).documents
  | stops h => exact ((stops_shutdown ..).becomes h).documents

/-! ## Messages -/

theorem documents_receive (i : Instance) (now : Time) (n : Nat) (m : Wire.Message) :
    (i.receive now n m).documents = i.documents := by
  cases m with
  | request r => exact documents_send i _
  | response r =>
    simp only [receive]
    split <;> rfl
  | notification r =>
    simp only [receive, takeNotification]
    split_ifs
    · unfold takePublish
      split
      · rfl
      · split <;> rfl
    · unfold takeLogLine
      split <;> rfl
    · rfl

theorem documents_loseStream (i : Instance) (n : Nat) :
    (i.loseStream n).documents = i.documents := by
  unfold loseStream
  split_ifs
  · rfl
  · exact documents_markDegraded i

theorem documents_failWriter (i : Instance) (n : Nat) :
    (i.failWriter n).documents = i.documents := by
  unfold failWriter
  split_ifs
  · rfl
  · exact documents_markDegraded i

theorem documents_readerStep (i : Instance) (n : Nat) (r : Reading) :
    (i.readerStep n r).documents = i.documents := by
  cases r with
  | delivering id r => exact (aside_deliver i id r).documents
  | idle | losing | ended => rfl

end Instance

/-! ## What happens beside a start -/

/-- Whether an event opens or closes a document. -/
def Scene.Event.isAnnouncement : Scene.Event → Bool
  | .opens _ _ _ => true
  | .closes _ => true
  | _ => false

/-- **Documents.** Whatever happens beside a start leaves the documents alone, unless it opens or closes
one. -/
theorem Scene.documents_of_act {s s' : Scene} {e : Scene.Event} (hs : s.start = .abandoned)
    (he : e.isAnnouncement = false) (ha : s.act e = some s') :
    s'.client.documents = s.client.documents := by
  have hdoes := does_of_act (ne_start_of_act hs ha) ha
  generalize s'.client = i at hdoes ⊢
  cases hdoes with
  | keeps | drops | takes | writes | failsFrames => rfl
  | asks method params => exact (Instance.aside_beginExchange ..).documents
  | exchanges h => exact ((Instance.aside_exchange ..).becomes h).documents
  | shutsDown h => exact (Instance.Serviced.stops h).documents
  | opens heq | closes heq => rw [heq] at he; cases he
  | receives m => exact Instance.documents_receive ..
  | loses => exact Instance.documents_loseStream ..
  | reads r => exact Instance.documents_readerStep ..
  | fails => exact Instance.documents_failWriter ..

end DiagnosticBroker
