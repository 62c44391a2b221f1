import DiagnosticBroker.Proofs.Instance.Effect

/-!
# Instances stay stopped

An instance is terminated by a shutdown, and apart from the first step of its one start no operation
takes that back. So a shutdown that is over has left its instance terminated.

Results:
* `wanes_send`, `wanes_exchange` and so on: operations leave the lifecycle as it is or degrade it.
* `yields_shutdown`: a shutdown ends with a stopped instance.
* `backend_start`: a start does not change what the instance is for.
-/

namespace DiagnosticBroker

/-! ## What steps come to -/

section Yields

variable {σ ρ π α β : Type}

/-- A step goes on with a state and a rest that have a property, or ends with a state and a result
that have another one. -/
def Step.Yields (s : Step σ ρ α) (P : σ → ρ → Prop) (Q : σ → α → Prop) : Prop :=
  match s with
  | .blocked _ => True
  | .next st r => P st r
  | .later st r => P st r
  | .done st a => Q st a

theorem Step.Yields.leads {s : Step σ ρ α} {P : σ → ρ → Prop} {Q : σ → α → Prop} {R : σ → Prop}
    (h : s.Yields P Q) (hP : ∀ st r, P st r → R st) (hQ : ∀ st a, Q st a → R st) : s.Leads R := by
  cases s with
  | blocked u => trivial
  | next st r => exact hP st r h
  | later st r => exact hP st r h
  | done st a => exact hQ st a h

theorem Step.Yields.of_within {s : Step σ ρ α} {R : σ → Prop} (h : s.Leads R)
    {P : σ → π → Prop} {Q : σ → β → Prop} {rest : ρ → π} {finish : σ → α → Step σ π β}
    (hP : ∀ st r, R st → P st (rest r)) (hf : ∀ st a, R st → (finish st a).Yields P Q) :
    (s.within rest finish).Yields P Q := by
  cases s with
  | blocked u => trivial
  | next st r => exact hP st r h
  | later st r => exact hP st r h
  | done st a => exact hf st a h

theorem Step.Yields.orAt {s expire : Step σ ρ α} {P : σ → ρ → Prop} {Q : σ → α → Prop}
    (h : s.Yields P Q) (he : expire.Yields P Q) (now deadline : Time) :
    (s.orAt now deadline expire).Yields P Q := by
  cases s with
  | blocked u =>
    unfold Step.orAt
    split_ifs
    · exact he
    · cases u <;> trivial
  | next st r => exact h
  | later st r => exact h
  | done st a => exact h

end Yields

section Becomes

variable {σ τ ρ π α β : Type}

/-- What a step comes to that is not blocked. -/
inductive Step.Becomes : Step σ ρ α → σ → Task ρ α → Prop where
  | next (st : σ) (r : ρ) : Becomes (.next st r) st (.running r)
  | later (st : σ) (r : ρ) : Becomes (.later st r) st (.running r)
  | done (st : σ) (a : α) : Becomes (.done st a) st (.ended a)

theorem Step.Becomes.of_next {s : Step σ ρ α} {st : σ} {r : ρ} (h : s = .next st r) :
    s.Becomes st (.running r) := h ▸ .next st r

theorem Step.Becomes.of_later {s : Step σ ρ α} {st : σ} {r : ρ} (h : s = .later st r) :
    s.Becomes st (.running r) := h ▸ .later st r

theorem Step.Becomes.of_done {s : Step σ ρ α} {st : σ} {a : α} (h : s = .done st a) :
    s.Becomes st (.ended a) := h ▸ .done st a

theorem Step.Becomes.of_within {s : Step σ ρ α} {rest : ρ → π} {finish : σ → α → Step σ π β} {q : σ}
    {t : Task π β} (h : (s.within rest finish).Becomes q t) :
    (∃ r, s.Becomes q (.running r) ∧ t = .running (rest r)) ∨
      ∃ st a, s.Becomes st (.ended a) ∧ (finish st a).Becomes q t := by
  cases s with
  | blocked u => cases h
  | next st r => cases h; exact .inl ⟨r, .next _ _, rfl⟩
  | later st r => cases h; exact .inl ⟨r, .later _ _, rfl⟩
  | done st a => exact .inr ⟨st, a, .done _ _, h⟩

theorem Step.Becomes.of_lift {s : Step σ ρ α} {put : σ → τ} {q : τ} {t : Task ρ α}
    (h : (s.lift put).Becomes q t) : ∃ st, s.Becomes st t ∧ q = put st := by
  cases s with
  | blocked u => cases h
  | next st r => cases h; exact ⟨st, .next _ _, rfl⟩
  | later st r => cases h; exact ⟨st, .later _ _, rfl⟩
  | done st a => cases h; exact ⟨st, .done _ _, rfl⟩

theorem Step.Becomes.of_orAt {s expire : Step σ ρ α} {now deadline : Time} {q : σ} {t : Task ρ α}
    (h : (s.orAt now deadline expire).Becomes q t) : s.Becomes q t ∨ expire.Becomes q t := by
  cases s with
  | blocked u =>
    simp only [Step.orAt] at h
    split_ifs at h
    · exact .inr h
    · cases u <;> cases h
  | next | later | done => exact .inl h

theorem Step.Yields.running {s : Step σ ρ α} {P : σ → ρ → Prop} {Q : σ → α → Prop} {q : σ} {r : ρ}
    (h : s.Yields P Q) (hs : s.Becomes q (.running r)) : P q r := by
  cases hs <;> exact h

theorem Step.Yields.ended {s : Step σ ρ α} {P : σ → ρ → Prop} {Q : σ → α → Prop} {q : σ} {a : α}
    (h : s.Yields P Q) (hs : s.Becomes q (.ended a)) : Q q a := by
  cases hs
  exact h

theorem Step.Leads.becomes {s : Step σ ρ α} {P : σ → Prop} {q : σ} {t : Task ρ α} (h : s.Leads P)
    (hs : s.Becomes q t) : P q := by
  cases hs <;> exact h

theorem Task.becomes_of_advance {step : ρ → Step σ ρ α} {t t' : Task ρ α} {st : σ}
    (h : t.advance step = some (st, t')) : ∃ r, t = .running r ∧ (step r).Becomes st t' := by
  unfold Task.advance at h
  split at h
  · rename_i r
    split at h <;> rename_i heq <;> cases h
    · exact ⟨r, rfl, .of_next heq⟩
    · exact ⟨r, rfl, .of_later heq⟩
    · exact ⟨r, rfl, .of_done heq⟩
  · cases h

end Becomes

namespace Instance

variable {i j k : Instance}

/-! ## Stopped instances -/

/-- The instance `j` is for the same backend as `i`, keeps the same answer of it, and is stopped if
`i` is. -/
structure Endures (i j : Instance) : Prop where
  backend : j.backend = i.backend
  capabilities : j.capabilities = i.capabilities
  terminated : i.lifecycle = .terminated → j.lifecycle = .terminated

theorem Endures.refl (i : Instance) : Endures i i := ⟨rfl, rfl, id⟩

theorem Endures.trans (h : Endures i j) (h' : Endures j k) : Endures i k :=
  ⟨h'.backend.trans h.backend, h'.capabilities.trans h.capabilities,
    fun hi => h'.terminated (h.terminated hi)⟩

/-- What changes neither the backend nor what is kept of it, nor the lifecycle. -/
theorem Endures.of_eq (hb : j.backend = i.backend) (hc : j.capabilities = i.capabilities)
    (hl : j.lifecycle = i.lifecycle) : Endures i j :=
  ⟨hb, hc, fun h => hl.trans h⟩

/-- The instance `j` is for the same backend as `i`, keeps the same answer of it, and is no further
in its life, unless it has become degraded. -/
structure Wanes (i j : Instance) : Prop where
  backend : j.backend = i.backend
  capabilities : j.capabilities = i.capabilities
  lifecycle : j.lifecycle = i.lifecycle ∨ i.lifecycle ≠ .terminated ∧ j.lifecycle = .degraded

theorem Wanes.refl (i : Instance) : Wanes i i := ⟨rfl, rfl, .inl rfl⟩

theorem Wanes.trans (h : Wanes i j) (h' : Wanes j k) : Wanes i k where
  backend := h'.backend.trans h.backend
  capabilities := h'.capabilities.trans h.capabilities
  lifecycle := by
    rcases h.lifecycle with hj | ⟨hi, hj⟩
    · rw [← hj]
      exact h'.lifecycle
    · refine .inr ⟨hi, ?_⟩
      rcases h'.lifecycle with hk | ⟨-, hk⟩
      · rw [hk, hj]
      · exact hk

/-- What changes neither the backend nor what is kept of it, nor the lifecycle. -/
theorem Wanes.of_eq (hb : j.backend = i.backend) (hc : j.capabilities = i.capabilities)
    (hl : j.lifecycle = i.lifecycle) : Wanes i j :=
  ⟨hb, hc, .inl hl⟩

theorem Wanes.endures (h : Wanes i j) : Endures i j where
  backend := h.backend
  capabilities := h.capabilities
  terminated hi := by
    rcases h.lifecycle with hj | ⟨hne, -⟩
    · exact hj.trans hi
    · exact absurd hi hne

theorem wanes_markDegraded (i : Instance) : Wanes i i.markDegraded := by
  unfold markDegraded
  cases h : i.lifecycle with
  | terminated => exact .refl i
  | notStarted | starting | initialized | ready | degraded =>
    exact ⟨rfl, rfl, .inr ⟨by simp [h], rfl⟩⟩

theorem wanes_send (i : Instance) (m : Wire.Message) : Wanes i (i.send m).1 := by
  unfold send
  split
  · exact .refl i
  · split_ifs
    · exact wanes_markDegraded i
    · exact .of_eq rfl rfl rfl

theorem wanes_openDocument (i : Instance) (now : Time) (uri languageId text : String) :
    Wanes i (i.openDocument now uri languageId text).1 := by
  rw [openDocument_eq]
  have h := wanes_send (i.withCollector (i.registration now uri).1)
    (announcement uri languageId text (i.nextVersion uri) (i.documents.lookup uri).isSome)
  simp only
  split
  · exact ⟨h.backend, h.capabilities, h.lifecycle⟩
  · exact ⟨h.backend, h.capabilities, h.lifecycle⟩

theorem wanes_closeDocument (i : Instance) (uri : String) :
    Wanes i (i.closeDocument uri).1 := by
  unfold closeDocument
  split
  · exact .refl i
  · split_ifs
    · have h := wanes_send { i with documents := i.documents.filter fun e => e.1 ≠ uri }
        (.notification (.new Wire.DidClose.method (some (Wire.DidClose.mk uri).encode)))
      exact ⟨h.backend, h.capabilities, h.lifecycle⟩
    · exact .of_eq rfl rfl rfl

/-! ## Reading and writing -/

theorem wanes_takeNotification (i : Instance) (now : Time) (n : Wire.Notification) :
    Wanes i (i.takeNotification now n) := by
  unfold takeNotification
  simp only
  split_ifs
  · unfold takePublish
    split
    · exact .of_eq rfl rfl rfl
    · split <;> exact .of_eq rfl rfl rfl
  · unfold takeLogLine
    split <;> exact .of_eq rfl rfl rfl
  · exact .refl i

theorem wanes_receive (i : Instance) (now : Time) (n : Nat) (m : Wire.Message) :
    Wanes i (i.receive now n m) := by
  cases m with
  | request r => exact wanes_send i _
  | notification n => exact wanes_takeNotification i now n
  | response r =>
    simp only [receive]
    split
    · exact .of_eq rfl rfl rfl
    · exact .refl i

theorem wanes_loseStream (i : Instance) (n : Nat) : Wanes i (i.loseStream n) := by
  unfold loseStream
  split_ifs
  · exact .of_eq rfl rfl rfl
  · have h := wanes_markDegraded i
    exact ⟨h.backend, h.capabilities, h.lifecycle⟩

theorem wanes_failWriter (i : Instance) (n : Nat) : Wanes i (i.failWriter n) := by
  unfold failWriter
  split_ifs
  · exact .of_eq rfl rfl rfl
  · have h := wanes_markDegraded i
    exact ⟨h.backend, h.capabilities, h.lifecycle⟩

theorem wanes_readerStep (i : Instance) (n : Nat) (r : Reading) :
    Wanes i (i.readerStep n r) := by
  cases r with
  | idle | ended | losing => exact .of_eq rfl rfl rfl
  | delivering id r =>
    unfold readerStep deliver
    simp only
    split <;> exact .of_eq rfl rfl rfl

/-! ## Requests -/

theorem wanes_beginExchange (i : Instance) (method : String) (params : Option Json) :
    Wanes i (Exchange.start i method params).1 := by
  unfold Exchange.start
  split <;> exact .of_eq rfl rfl rfl

theorem wanes_exchange (now : Time) (i : Instance) (x : Exchange) :
    (x.step now i).Leads (Wanes i) := by
  unfold Exchange.step
  cases x.phase with
  | register =>
    have h := wanes_send { i with pending := i.pending ++ [x.id] }
      (.request (.new x.id x.method x.params))
    have hi : Wanes i ({ i with pending := i.pending ++ [x.id] }.send
        (.request (.new x.id x.method x.params))).1 := ⟨h.backend, h.capabilities, h.lifecycle⟩
    simp only
    split <;> exact hi
  | unregister f => exact .of_eq rfl rfl rfl
  | waiting deadline =>
    simp only
    split
    · exact .of_eq rfl rfl rfl
    · split_ifs
      · exact .refl i
      · trivial
  | giveUp =>
    have hf : Wanes i (Exchange.forget i x.id) := .of_eq rfl rfl rfl
    exact (hf.trans (wanes_send _ _)).trans (wanes_markDegraded _)

/-! ## Shutdowns -/

/-- Whether a shutdown has closed the input of the backend. -/
def Shutdown.hasClosed : Shutdown → Bool
  | begin => false
  | asking _ _ => false
  | _ => true

/-- An instance is stopped once a shutdown of it has closed the input. -/
def Shutdown.Closes (s : Shutdown) (i : Instance) : Prop :=
  s.hasClosed = true → i.lifecycle = .terminated

theorem Shutdown.Closes.endures {s : Shutdown} (h : s.Closes i) (hij : Endures i j) :
    s.Closes j := fun hs => hij.terminated (h hs)

theorem lifecycle_hangUp (i : Instance) : i.hangUp.lifecycle = i.lifecycle := by
  unfold hangUp
  cases i.outgoing <;> rfl

theorem backend_hangUp (i : Instance) : i.hangUp.backend = i.backend := by
  unfold hangUp
  cases i.outgoing <;> rfl

theorem capabilities_hangUp (i : Instance) : i.hangUp.capabilities = i.capabilities := by
  unfold hangUp
  cases i.outgoing <;> rfl

theorem yields_close (now : Time) {s₀ : Shutdown} (hij : Endures i j) :
    (Shutdown.close now j).Yields (fun k s => Endures i k ∧ (s₀.Closes i → s.Closes k))
      (fun k _ => Endures i k ∧ (s₀.Closes i → k.lifecycle = .terminated)) := by
  have hl := lifecycle_hangUp { j with lifecycle := .terminated }
  have hb := backend_hangUp { j with lifecycle := .terminated }
  have hend : Endures i ({ j with lifecycle := .terminated } : Instance).hangUp :=
    ⟨hb.trans hij.backend, (capabilities_hangUp _).trans hij.capabilities, fun _ => hl⟩
  unfold Shutdown.close
  simp only
  split
  · exact ⟨⟨hend.backend, hend.capabilities, hend.terminated⟩, fun _ _ => hl⟩
  · exact ⟨hend, fun _ _ => hl⟩

/-- A shutdown ends with a stopped instance, if the instance has been stopped since the shutdown
closed the input. -/
theorem yields_shutdown (exited : Nat → Bool) (now : Time) (i : Instance) (s₀ : Shutdown) :
    (s₀.step exited now i).Yields (fun k s => Endures i k ∧ (s₀.Closes i → s.Closes k))
      (fun k _ => Endures i k ∧ (s₀.Closes i → k.lifecycle = .terminated)) := by
  have hanswer : ∀ j a, Endures i j → (Shutdown.answered now j a).Yields
      (fun k s => Endures i k ∧ (s₀.Closes i → s.Closes k))
      (fun k _ => Endures i k ∧ (s₀.Closes i → k.lifecycle = .terminated)) := by
    intro j a hj
    cases a with
    | error f => exact yields_close now hj
    | ok r => exact yields_close now (hj.trans (wanes_send j _).endures)
  cases s₀ with
  | begin =>
    rw [Shutdown.step]
    split_ifs with ht
    · exact ⟨.refl i, fun _ => ht⟩
    · have hx := (wanes_beginExchange i "shutdown" none).endures
      split <;> rename_i heq
      · rw [heq] at hx
        exact ⟨hx, fun _ h => by cases h⟩
      · rw [heq] at hx
        exact yields_close now hx
    · exact yields_close now (.refl i)
  | asking x deadline =>
    refine Step.Yields.orAt ?_ (yields_close now (.refl i)) now deadline
    exact .of_within (wanes_exchange now i x) (fun _ _ h => ⟨h.endures, fun _ h => by cases h⟩)
      fun j a h => hanswer j a h.endures
  | draining n deadline =>
    rw [Shutdown.step]
    split_ifs
    · exact ⟨.refl i, fun hs _ => hs rfl⟩
    · trivial
  | reaping =>
    rw [Shutdown.step]
    split
    · exact ⟨.of_eq rfl rfl rfl, fun hs _ => hs rfl⟩
    · exact ⟨.refl i, fun hs _ => hs rfl⟩
  | exiting p deadline =>
    rw [Shutdown.step]
    split_ifs
    · exact ⟨.refl i, fun hs _ => hs rfl⟩
    · trivial
  | failing => exact ⟨.of_eq rfl rfl rfl, fun hs => hs rfl⟩

theorem endures_shutdown (exited : Nat → Bool) (now : Time) (i : Instance) (s : Shutdown) :
    (s.step exited now i).Leads (Endures i) :=
  (yields_shutdown exited now i s).leads (fun _ _ h => h.1) fun _ _ h => h.1

/-! ## Starts -/

theorem backend_connect (i : Instance) (launch : Nat) :
    (i.connect launch).backend = i.backend := by
  unfold connect
  cases i.outgoing <;> rfl

theorem capabilities_connect (i : Instance) (launch : Nat) :
    (i.connect launch).capabilities = i.capabilities := by
  unfold connect
  cases i.outgoing <;> rfl

theorem backend_advance {a b : Lifecycle} (h : i.advance a b = .ok j) : j.backend = i.backend := by
  obtain ⟨-, rfl⟩ := eq_of_advance h
  rfl

/-- A start does not change what the instance is for. -/
theorem backend_start (now : Time) (i : Instance) (s : Start) :
    (s.step now i).Leads fun j => j.backend = i.backend := by
  unfold Start.step
  cases s.phase with
  | begin => exact rfl
  | attach =>
    generalize hj : ({ i with
      process := if s.isProcess then some s.launch else none } : Instance).connect s.launch = j
    have hb : j.backend = i.backend := by
      rw [← hj]
      exact backend_connect _ _
    have hx := wanes_beginExchange j "initialize"
      (some (j.introduction s.clientProcess).encode.canonical)
    simp only [Start.attach, hj]
    split <;> rename_i heq
    · rw [heq] at hx
      exact hx.backend.trans hb
    · rw [heq] at hx
      exact hx.backend.trans hb
  | handshake x =>
    refine (wanes_exchange now i x).within (fun _ h => h.backend) fun j a hj => ?_
    cases a with
    | error f => exact hj.backend
    | ok r =>
      simp only [Start.answered]
      split <;> exact hj.backend
  | record r => exact rfl
  | confirm | complete =>
    simp only
    split
    · rename_i j hj
      exact backend_advance hj
    · exact rfl
  | announce =>
    have hn := (wanes_send i (.notification (.new "initialized" (some (.obj []))))).backend
    simp only
    split <;> rename_i heq <;> rw [notify] at heq <;> rw [heq] at hn
    · exact hn
    · exact hn

end Instance

end DiagnosticBroker
