import DiagnosticBroker.Proofs.Collector.Waits
import DiagnosticBroker.Proofs.Instance.Scene

/-!
# What an event can do

Most events happen beside the documents. The others open or close a document, give a waiter back,
let a wait go on, bring diagnostics, or end all subscriptions. `Effect` says which of these an event
is, and everything about runs is proved case by case from it.

Results:
* `effect_of_act`: what an event can do.
* `wired_of_reachable`: an instance has at most one link.
* `Reachable.induct`: what every effect keeps, holds in every run.
-/

namespace DiagnosticBroker

open Instance (Aside Fares Stops Loses Opens Refuses Closes)

namespace Scene

variable {P : Scene → Event → Prop} {s s' : Scene} {e : Event}

/-! ## Kinds of events -/

/-- Whether an event belongs to a shutdown. -/
def Event.isStop : Event → Bool
  | .stop => true
  | .shutdown _ _ => true
  | .leave _ => true
  | _ => false

/-- The publish that an event brings. -/
def Event.publish? : Event → Option Wire.Publish
  | .receive (.notification n) =>
    if n.method = Wire.Publish.method then
      match Wire.Publish.decode (n.params.getD .null) with
      | .ok p => some p
      | .error _ => none
    else none
  | _ => none

/-- What the holder of a waiter does next, short of giving it back. -/
inductive Moves (s : Scene) (h : Holder) : Holder.Phase → Prop where
  | idle : Moves s h .idle
  | begins (timeout settle : Duration) : Moves s h (.waiting ⟨h.waiter, timeout, settle, .begin⟩)
  | goesOn {w w' : Wait} (hw : h.phase = .waiting w)
      (hs : w.step s.now s.client.collector = .next s.client.collector w') :
      Moves s h (.waiting w')

/-- What an event can do to documents, diagnostics and those who wait for them. -/
inductive Effect (s : Scene) (e : Event) (s' : Scene) : Prop where
  | fares (hi : Fares s.client s'.client)
      (hl : e ≠ .start → s'.client.links.length = s.client.links.length)
      (hh : s'.holders = s.holders) (hc : s'.calls = s.calls)
  | stops (he : e.isStop = true) (hi : Stops s.client s'.client) (hh : s'.holders = s.holders)
      (hc : s'.calls = s.calls)
  | loses (hi : Loses s.client s'.client) (hh : s'.holders = s.holders) (hc : s'.calls = s.calls)
  | publishes {p : Wire.Publish} (he : e.publish? = some p) (hr : s.client.isLost = false)
      (hi : s'.client = s.client.withCollector (s.client.collector.publish s.now p))
      (hh : s'.holders = s.holders) (hc : s'.calls = s.calls)
  | rejects {uri reason : String} {version : Option Int} (hr : s.client.isLost = false)
      (hi : s'.client =
        s.client.withCollector (s.client.collector.reject uri version reason).1)
      (hh : s'.holders = s.holders) (hc : s'.calls = s.calls)
  | opens {uri : String} {version : Int} {waiter : Waiter}
      (hi : Opens s.client s.now uri s'.client version waiter)
      (hh : s'.holders = s.holders ++
        [⟨waiter, (s.client.announcements uri).length, s.client.isLost, .idle⟩])
      (hc : s'.calls = s.calls ++ [.opened uri version])
  | refuses {uri : String} {fault : Fault} (hi : Refuses s.client s.now uri s'.client fault)
      (hh : s'.holders = s.holders) (hc : s'.calls = s.calls)
  | closes {uri : String} {told : Bool} (hi : Closes s.client uri s'.client told)
      (hh : s'.holders = s.holders) (hc : s'.calls = s.calls ++ [.closed uri told])
  | drops {n : Nat} {h : Holder} (hn : s.holders[n]? = some h) (hl : h.isLive = true)
      (hi : s'.client = s.client.releaseWaiter h.waiter)
      (hh : s'.holders = s.holders.set n { h with phase := .dropped }) (hc : s'.calls = s.calls)
  | moves {n : Nat} {h : Holder} {p : Holder.Phase} (hn : s.holders[n]? = some h)
      (hl : h.isLive = true) (hp : Moves s h p) (hi : s'.client = s.client)
      (hh : s'.holders = s.holders.set n { h with phase := p }) (hc : s'.calls = s.calls)

theorem Effect.aside (hi : Aside s.client s'.client) (hh : s'.holders = s.holders)
    (hc : s'.calls = s.calls) : Effect s e s' :=
  .fares hi.fares (fun _ => hi.length) hh hc

/-! ## The one link -/

/-- The instance has one link at most, and none before it is attached. -/
structure Wired (s : Scene) : Prop where
  linked : s.client.Linked
  unattached : ∀ st, s.start = .running st → st.phase = .begin ∨ st.phase = .attach →
    s.client.links = []

theorem eq_of_onLink {f : Link → Option Instance} (h : s.onLink f = some s') :
    ∃ l i, s.client.link? 0 = some l ∧ f l = some i ∧ s' = { s with client := i } := by
  unfold onLink at h
  split at h
  · rename_i l hl
    obtain ⟨i, hi, hs⟩ := Option.map_eq_some_iff.mp h
    exact ⟨l, i, hl, hi, hs.symm⟩
  · cases h

theorem leads_of_advance {ρ α : Type} {step : ρ → Step Instance ρ α} {t t' : Task ρ α}
    {i : Instance} (h : t.advance step = some (i, t')) {Q : Instance → Prop}
    (hQ : ∀ r, t = .running r → (step r).Leads Q) : Q i := by
  unfold Task.advance at h
  split at h
  · rename_i r
    have hr := hQ r rfl
    split at h <;> rename_i heq
    · cases h
    · cases h
      rw [heq] at hr
      exact hr
    · cases h
      rw [heq] at hr
      exact hr
    · cases h
      rw [heq] at hr
      exact hr
  · cases h

theorem isLost_of_reader {i : Instance} {l : Link} (hl : i.link? 0 = some l) :
    i.isLost = l.reader.isEnded := by
  simp [Instance.isLost, hl]

/-- What a message does that the reader has read. -/
theorem effect_receive {m : Wire.Message} {l : Link} (hl : s.client.link? 0 = some l)
    (hr : l.reader = .idle)
    (hs : s' = { s with client := s.client.receive s.now 0 m }) : Effect s (.receive m) s' := by
  have hlost : s.client.isLost = false := by
    rw [isLost_of_reader hl, hr]
    rfl
  subst hs
  cases m with
  | request r => exact .aside (Instance.aside_send rfl) rfl rfl
  | response r =>
    refine .aside ?_ rfl rfl
    simp only [Instance.receive]
    split
    · refine Instance.aside_setReader fun l' hl' => ?_
      rw [hl] at hl'
      cases hl'
      rw [hr]
      rfl
    · exact .refl _
  | notification n =>
    by_cases hm : n.method = Wire.Publish.method
    · cases hd : Wire.Publish.decode (n.params.getD .null) with
      | ok p =>
        refine .publishes (p := p) ?_ hlost ?_ rfl rfl
        · simp [Event.publish?, hm, hd]
        · simp [Instance.receive, Instance.takeNotification, hm, Instance.takePublish, hd,
            Instance.withCollector]
      | error e =>
        cases hu : ((n.params.getD .null).get? "uri").bind Json.str? with
        | some uri =>
          have hreceive : s.client.receive s.now 0 (.notification n) =
              s.client.withCollector (s.client.collector.reject uri
                (Instance.publishedVersion (n.params.getD .null)) e.message).1 := by
            simp [Instance.receive, Instance.takeNotification, hm, Instance.takePublish, hd, hu,
              Instance.withCollector]
          exact .rejects hlost hreceive rfl rfl
        | none =>
          refine .aside ?_ rfl rfl
          simp only [Instance.receive, Instance.takeNotification, if_pos hm, Instance.takePublish,
            hd, hu]
          exact .refl _
    · refine .aside ?_ rfl rfl
      simp only [Instance.receive, Instance.takeNotification, if_neg hm]
      split_ifs
      · unfold Instance.takeLogLine
        split
        · exact .of_links rfl rfl id rfl rfl
        · exact .refl _
      · exact .refl _

/-- What the reader and the writer of the link do. -/
theorem effect_link (hw : s.Wired) (ha : s.act e = some s')
    (he : e = .lose ∨ e = .read ∨ e = .take ∨ e = .written ∨ e = .fail ∨ e = .failFrames ∨
      e = .finish) : Effect s e s' := by
  rcases he with rfl | rfl | rfl | rfl | rfl | rfl | rfl
  · obtain ⟨l, i, hl, hf, rfl⟩ := eq_of_onLink ha
    split at hf <;> rename_i hr
    · cases hf
      exact .aside (Instance.aside_loseStream hl hr) rfl rfl
    · cases hf
  · obtain ⟨l, i, hl, hf, rfl⟩ := eq_of_onLink ha
    split at hf
    · rename_i n r hr
      cases hf
      refine .aside ((Instance.aside_deliver s.client n r).trans
        (Instance.aside_setReader fun l' hl' => ?_)) rfl rfl
      have hlink : (s.client.deliver n r).link? 0 = s.client.link? 0 := by
        unfold Instance.deliver
        split <;> rfl
      rw [hlink, hl] at hl'
      cases hl'
      rw [hr]
      rfl
    · rename_i hr
      cases hf
      exact .loses (Instance.loses_readerStep hl hr) rfl rfl
    · cases hf
  · obtain ⟨l, i, hl, hf, rfl⟩ := eq_of_onLink ha
    split at hf <;> rename_i hr
    · obtain ⟨m, -, rfl⟩ := Option.map_eq_some_iff.mp hf
      exact .aside (Instance.aside_takeFrame hl hr m) rfl rfl
    · cases hf
  · obtain ⟨l, i, hl, hf, rfl⟩ := eq_of_onLink ha
    split at hf <;> rename_i hr
    · cases hf
      refine .aside (Instance.aside_setWriter fun l' hl' => ?_) rfl rfl
      rw [hl] at hl'
      cases hl'
      rw [hr]
      rfl
    · cases hf
  · obtain ⟨l, i, hl, hf, rfl⟩ := eq_of_onLink ha
    split at hf <;> rename_i hr
    · cases hf
      exact .aside (Instance.aside_failWriter hl hr) rfl rfl
    · cases hf
  · obtain ⟨l, i, hl, hf, rfl⟩ := eq_of_onLink ha
    split at hf <;> rename_i hr
    · cases hf
      exact .loses (Instance.loses_failFrames hl hw.linked) rfl rfl
    · cases hf
  · obtain ⟨l, i, hl, hf, rfl⟩ := eq_of_onLink ha
    split at hf
    · split_ifs at hf with hsealed
      cases hf
      refine .aside (Instance.aside_setWriter_ended fun h => ?_) rfl rfl
      have hmem : l ∈ s.client.links := List.mem_of_getElem? hl
      rw [h.unsealed l hmem] at hsealed
      cases hsealed
    · cases hf

/-- What requests, shutdowns and the start do. -/
theorem effect_task (hw : s.Wired) (ha : s.act e = some s')
    (he : e = .start ∨ (∃ m p, e = .ask m p) ∨ (∃ n, e = .exchange n) ∨
      ∃ n x, e = .shutdown n x) : Effect s e s' := by
  rcases he with rfl | ⟨m, p, rfl⟩ | ⟨n, rfl⟩ | ⟨n, x, rfl⟩
  · obtain ⟨⟨i, t⟩, hi, rfl⟩ := Option.map_eq_some_iff.mp ha
    refine .fares (leads_of_advance hi fun st hst => ?_) (fun h => absurd rfl h) rfl rfl
    exact Instance.fares_start s.now fun hp => hw.unattached st hst (.inr hp)
  · have hx := Instance.aside_beginExchange s.client m p
    simp only [act] at ha
    split at ha <;> rename_i heq
    · rw [heq] at hx
      cases ha
      exact .aside hx rfl rfl
    · rw [heq] at hx
      cases ha
      exact .aside hx rfl rfl
  · simp only [act, Option.bind_eq_bind, Option.bind_eq_some_iff] at ha
    obtain ⟨t, -, ⟨i, t'⟩, hi, hs⟩ := ha
    cases hs
    exact .aside (leads_of_advance hi fun y _ => Instance.aside_exchange s.now s.client y) rfl rfl
  · simp only [act, Option.bind_eq_bind, Option.bind_eq_some_iff] at ha
    obtain ⟨t, -, ⟨i, t'⟩, hi, hs⟩ := ha
    cases hs
    exact .stops rfl (leads_of_advance hi fun y _ => Instance.stops_shutdown x s.now s.client y)
      rfl rfl

/-- What the holders of waiters do. -/
theorem effect_holder (ha : s.act e = some s')
    (he : (∃ n, e = .drop n) ∨ (∃ n t q, e = .wait n t q) ∨ (∃ n, e = .look n) ∨
      ∃ n, e = .turnAway n) : Effect s e s' := by
  rcases he with ⟨n, rfl⟩ | ⟨n, t, q, rfl⟩ | ⟨n, rfl⟩ | ⟨n, rfl⟩
  · simp only [act, Option.bind_eq_bind, Option.bind_eq_some_iff] at ha
    obtain ⟨h, hn, ha⟩ := ha
    split_ifs at ha with hl
    cases ha
    exact .drops hn hl rfl rfl rfl
  · simp only [act, Option.bind_eq_bind, Option.bind_eq_some_iff] at ha
    obtain ⟨h, hn, ha⟩ := ha
    split at ha <;> rename_i hp
    · cases ha
      exact .moves hn (by rw [Holder.isLive, hp]) (.begins t q) rfl rfl rfl
    · cases ha
  · simp only [act, Option.bind_eq_bind, Option.bind_eq_some_iff] at ha
    obtain ⟨h, hn, ha⟩ := ha
    split at ha <;> rename_i hp
    · rename_i w
      obtain ⟨p, hlook, rfl⟩ := Option.map_eq_some_iff.mp ha
      have hl : h.isLive = true := by rw [Holder.isLive, hp]
      refine .moves hn hl ?_ rfl rfl rfl
      unfold look at hlook
      split at hlook <;> rename_i hstep
      · cases hlook
      · cases hlook
        have hc := Wait.eq_of_next hstep
        rw [hc] at hstep
        exact .goesOn hp hstep
      · exact absurd hstep fun h => Wait.step_ne_later h
      · cases hlook
        exact .idle
    · cases ha
  · simp only [act, Option.bind_eq_bind, Option.bind_eq_some_iff] at ha
    obtain ⟨h, hn, ha⟩ := ha
    split at ha <;> rename_i hp
    · cases ha
      exact .moves hn (by rw [Holder.isLive, hp]) .idle rfl rfl rfl
    · cases ha

/-- **Effects.** An event has one of the effects that `Effect` lists. -/
theorem effect_of_act (hw : s.Wired) (ha : s.act e = some s') : Effect s e s' := by
  have hsame : s'.client = s.client → s'.holders = s.holders → s'.calls = s.calls →
      Effect s e s' := by
    intro hi hh hc
    refine .aside ?_ hh hc
    rw [hi]
    exact .refl _
  cases e with
  | elapse d => cases ha; exact hsame rfl rfl rfl
  | start => exact effect_task hw ha (.inl rfl)
  | ask m p => exact effect_task hw ha (.inr (.inl ⟨m, p, rfl⟩))
  | exchange n => exact effect_task hw ha (.inr (.inr (.inl ⟨n, rfl⟩)))
  | cancel n =>
    simp only [act] at ha
    split at ha <;> cases ha
    exact hsame rfl rfl rfl
  | stop => cases ha; exact hsame rfl rfl rfl
  | shutdown n x => exact effect_task hw ha (.inr (.inr (.inr ⟨n, x, rfl⟩)))
  | leave n =>
    simp only [act] at ha
    split at ha <;> cases ha
    exact hsame rfl rfl rfl
  | opens uri languageId text =>
    simp only [act] at ha
    split at ha <;> rename_i heq
    · cases ha
      exact .opens (Instance.opens_of_openDocument heq) rfl rfl
    · cases ha
      exact .refuses (Instance.refuses_of_openDocument heq) rfl rfl
  | closes uri =>
    simp only [act] at ha
    cases ha
    exact .closes (Instance.closes_of_closeDocument rfl) rfl rfl
  | drop n => exact effect_holder ha (.inl ⟨n, rfl⟩)
  | wait n t q => exact effect_holder ha (.inr (.inl ⟨n, t, q, rfl⟩))
  | look n => exact effect_holder ha (.inr (.inr (.inl ⟨n, rfl⟩)))
  | turnAway n => exact effect_holder ha (.inr (.inr (.inr ⟨n, rfl⟩)))
  | receive m =>
    obtain ⟨l, i, hl, hf, rfl⟩ := eq_of_onLink ha
    split at hf <;> rename_i hr
    · cases hf
      exact effect_receive hl hr rfl
    · cases hf
  | lose => exact effect_link hw ha (.inl rfl)
  | read => exact effect_link hw ha (.inr (.inl rfl))
  | take => exact effect_link hw ha (.inr (.inr (.inl rfl)))
  | written => exact effect_link hw ha (.inr (.inr (.inr (.inl rfl))))
  | fail => exact effect_link hw ha (.inr (.inr (.inr (.inr (.inl rfl)))))
  | failFrames => exact effect_link hw ha (.inr (.inr (.inr (.inr (.inr (.inl rfl))))))
  | finish => exact effect_link hw ha (.inr (.inr (.inr (.inr (.inr (.inr rfl))))))

theorem linked_of_effect (hl : s.client.Linked) (h : Effect s e s') : s'.client.Linked := by
  cases h with
  | fares hi => exact hi.linked hl
  | stops he hi => exact hi.linked hl
  | loses hi => exact hi.linked hl
  | publishes he hr hi => rw [hi]; exact (Instance.keeps_withCollector _ _).linked hl
  | rejects hr hi => rw [hi]; exact (Instance.keeps_withCollector _ _).linked hl
  | opens hi => exact hi.linked hl
  | refuses hi => exact hi.linked hl
  | closes hi => exact hi.linked hl
  | drops hn hlive hi => rw [hi]; exact (Instance.keeps_withCollector _ _).linked hl
  | moves hn hlive hp hi => rw [hi]; exact hl

theorem length_of_effect (h : Effect s e s') (he : e ≠ .start) :
    s'.client.links.length = s.client.links.length := by
  cases h with
  | fares hi hl => exact hl he
  | stops he hi => exact hi.length
  | loses hi => exact hi.length
  | publishes he hr hi => rw [hi]; rfl
  | rejects hr hi => rw [hi]; rfl
  | opens hi => exact hi.length
  | refuses hi => exact hi.length
  | closes hi => exact hi.length
  | drops hn hlive hi => rw [hi]; rfl
  | moves hn hlive hp hi => rw [hi]

/-- An instance that has been attached once stays so. -/
theorem attached_of_effect (h : Effect s e s') (hl : s.client.links ≠ []) :
    s'.client.links ≠ [] := by
  cases h with
  | fares hi => exact hi.attached hl
  | stops _ hi => exact Instance.attached_of_length hi.length hl
  | loses hi => exact Instance.attached_of_length hi.length hl
  | publishes _ _ hi | rejects _ hi | drops _ _ hi | moves _ _ _ hi => rw [hi]; exact hl
  | opens hi => exact Instance.attached_of_length hi.length hl
  | refuses hi => exact Instance.attached_of_length hi.length hl
  | closes hi => exact Instance.attached_of_length hi.length hl

theorem cut_of_effect (h : Effect s e s') (hc : s.client.IsCut) : s'.client.IsCut := by
  cases h with
  | fares hi => exact hi.cut hc
  | stops _ hi => exact hi.cut hc
  | loses hi => exact hi.cut hc
  | publishes _ _ hi => rw [hi]; exact (Instance.keeps_withCollector _ _).cut hc
  | rejects _ hi => rw [hi]; exact (Instance.keeps_withCollector _ _).cut hc
  | opens hi => exact hi.cut hc
  | refuses hi => exact hi.cut hc
  | closes hi => exact hi.cut hc
  | drops _ _ hi => rw [hi]; exact (Instance.keeps_withCollector _ _).cut hc
  | moves _ _ _ hi => rw [hi]; exact hc

/-- Only the start changes the start. -/
theorem start_of_act (ha : s.act e = some s') (he : e ≠ .start) : s'.start = s.start := by
  have hlink : ∀ {f}, s.onLink f = some s' → s'.start = s.start := by
    intro f h
    obtain ⟨l, i, -, -, rfl⟩ := eq_of_onLink h
    rfl
  cases e with
  | start => exact absurd rfl he
  | receive | lose | read | take | written | fail | failFrames | finish => exact hlink ha
  | elapse | stop => cases ha; rfl
  | closes uri => simp only [act] at ha; cases ha; rfl
  | ask | cancel | leave | opens => simp only [act] at ha; split at ha <;> cases ha <;> rfl
  | exchange | shutdown =>
    simp only [act, Option.bind_eq_bind, Option.bind_eq_some_iff] at ha
    obtain ⟨t, -, ⟨i, t'⟩, -, hs⟩ := ha
    cases hs
    rfl
  | drop =>
    simp only [act, Option.bind_eq_bind, Option.bind_eq_some_iff] at ha
    obtain ⟨h, -, ha⟩ := ha
    split_ifs at ha
    cases ha
    rfl
  | wait | turnAway =>
    simp only [act, Option.bind_eq_bind, Option.bind_eq_some_iff] at ha
    obtain ⟨h, -, ha⟩ := ha
    split at ha <;> cases ha
    rfl
  | look =>
    simp only [act, Option.bind_eq_bind, Option.bind_eq_some_iff] at ha
    obtain ⟨h, -, ha⟩ := ha
    split at ha
    · obtain ⟨p, -, rfl⟩ := Option.map_eq_some_iff.mp ha
      rfl
    · cases ha

theorem wired_act (hw : s.Wired) (ha : s.act e = some s') : s'.Wired := by
  have heff := effect_of_act hw ha
  refine ⟨linked_of_effect hw.linked heff, fun st hst hp => ?_⟩
  by_cases he : e = .start
  · subst he
    obtain ⟨⟨i, t⟩, hi, rfl⟩ := Option.map_eq_some_iff.mp ha
    simp only at hst
    subst hst
    unfold Task.advance at hi
    split at hi
    · rename_i st₀ hst₀
      have hnext : st₀.step s.now s.client = .next i st ∨
          st₀.step s.now s.client = .later i st := by
        split at hi <;> rename_i heq <;> cases hi
        · exact .inl heq
        · exact .inr heq
      obtain ⟨hb, hattach⟩ := Instance.phase_of_start hnext
      obtain ⟨hb₀, hlinks⟩ := hattach (hp.resolve_left hb)
      exact hlinks.trans (hw.unattached st₀ hst₀ (.inl hb₀))
    · cases hi
  · rw [start_of_act ha he] at hst
    have hnil := hw.unattached st hst hp
    have hlen := length_of_effect heff he
    rw [hnil] at hlen
    exact List.eq_nil_of_length_eq_zero hlen

theorem wired_of_reachable (h : Reachable P s) : s.Wired := by
  induction h with
  | new backend budget roots directory launch isProcess clientProcess =>
    exact ⟨⟨by simp [new, Instance.new], by simp [new, Instance.new]⟩, fun _ _ _ => rfl⟩
  | step h he ha ih => exact wired_act ih ha

/-- **Runs.** What holds at the beginning and is kept by every effect, holds all the time. -/
theorem Reachable.induct {I : Scene → Prop}
    (hnew : ∀ backend budget roots directory launch isProcess clientProcess,
      I (.new backend budget roots directory launch isProcess clientProcess))
    (hstep : ∀ s e s', Reachable P s → I s → P s e → Effect s e s' → I s')
    (h : Reachable P s) : I s := by
  induction h with
  | new backend budget roots directory launch isProcess clientProcess =>
    exact hnew backend budget roots directory launch isProcess clientProcess
  | step h he ha ih =>
    exact hstep _ _ _ h ih he (effect_of_act (wired_of_reachable h) ha)

end Scene

end DiagnosticBroker
