import Mathlib.Data.List.Nodup
import DiagnosticBroker.Proofs.Pool.Alterations
import DiagnosticBroker.Proofs.Pool.Draining

/-!
# Which backends are taken out as idle

Whoever takes out idle backends holds on to all slots, counts the documents of the instances that
nobody was given for long enough, one after the other, and with the last count empties the slots of
those that have none. Nobody else changes a slot meanwhile. But whoever has an instance already can
open a document on it, and does not need its slot for that: an instance that is taken out had no open
document when it was asked, and may have one again.

Results:
* `slots_of_happens`: nobody else changes the slots that somebody holds on to.
* `unused_or_opened`: where documents of an instance come from that had none.
* `informed_of_reachable`: what is known of the backends that are asked, and of those that are found.
* `finishes_of_run`: what was taken out is stopped, and counted.
* `reaped_of_reachable`: what is taken out as idle, and what comes of it.
* `reaped_with_document`: what is taken out can be in use.
-/

namespace DiagnosticBroker

variable {w : Surroundings} {p q : Pool} {n : Nat}

/-! ## Slots that somebody holds on to -/

theorem StopAll.Goes.slots {s : StopAll} {t : Task StopAll Unit} (h : s.Goes w p q t) :
    q.slots = p.slots := by
  cases h <;> rfl

section

variable (hh : p.held = true)

include hh

theorem Retire.Goes.slots_of_held {c : Command} {i : Nat} {r : Retire} {t : Task Retire Unit}
    (h : r.Goes w p c i q t) : q.slots = p.slots := by
  cases h with
  | removes hfree => cases hh.symm.trans hfree
  | stops | stopped => rfl

theorem Ensure.Goes.slots_of_held {e : Ensure} {t : Task Ensure StartResult} (h : e.Goes w p q t) :
    q.slots = p.slots := by
  cases h with
  | touches _ hfree | claims _ hfree => cases hh.symm.trans hfree
  | retires _ hr | retired _ hr => exact hr.slots_of_held hh
  | _ => rfl

theorem Execute.Goes.slots_of_held {x : Execute Nat} {t : Task (Execute Nat) (Except Fault Nat)}
    (h : x.Goes w p q t) : q.slots = p.slots := by
  cases h with
  | ensures _ he | begins _ he | fails _ he => exact he.slots_of_held hh
  | retires _ hr | retired _ hr => exact hr.slots_of_held hh
  | _ => rfl

theorem Errand.Goes.slots_of_held {e : Errand} {state : Visitor.State} (h : e.Goes w p q state)
    (he : e.asked? = none) : q.slots = p.slots := by
  cases h with
  | ready h | readied h => exact h.slots_of_held hh
  | work h | worked h => exact h.slots_of_held hh
  | stopped h =>
    cases h with
    | ends hp hr => exact hr.slots
  | stop h =>
    cases h with
    | takes _ _ hfree | takesAll _ _ hfree | holds _ _ hfree | takesNone _ _ hfree =>
      cases hh.symm.trans hfree
    | asks hp | takesFound hp => cases (asked?_of_phase hp).symm.trans he
    | stops hp hr => exact hr.slots

theorem StartJob.Goes.slots_of_held {j j' : StartJob} (h : j.Goes w p n q j') :
    q.slots = p.slots := by
  rcases h.cases with ⟨hslots, -⟩ | hends
  · exact hslots
  · cases hh.symm.trans hends.unheld

end

/-! ## The age of slots -/

theorem StartJob.Goes.uptime {j j' : StartJob} (h : j.Goes w p n q j') : q.uptime = p.uptime := by
  cases h with
  | @settles r => cases r <;> rfl
  | clears =>
    simp only [clear]
    split_ifs <;> rfl
  | _ => rfl

theorem Retire.Goes.uptime {c : Command} {i : Nat} {r : Retire} {t : Task Retire Unit}
    (h : r.Goes w p c i q t) : q.uptime = p.uptime := by
  cases h with
  | removes =>
    rcases Pool.clearInstance_cases p c i with ⟨-, heq⟩ | ⟨-, heq⟩ <;> rw [heq]
    rfl
  | stops | stopped => rfl

theorem Ensure.Goes.uptime {e : Ensure} {t : Task Ensure StartResult} (h : e.Goes w p q t) :
    q.uptime = p.uptime := by
  cases h with
  | retires _ hr | retired _ hr => exact hr.uptime
  | _ => rfl

theorem Execute.Goes.uptime {x : Execute Nat} {t : Task (Execute Nat) (Except Fault Nat)}
    (h : x.Goes w p q t) : q.uptime = p.uptime := by
  cases h with
  | ensures _ he | begins _ he | fails _ he => exact he.uptime
  | retires _ hr | retired _ hr => exact hr.uptime
  | _ => rfl

theorem StopAll.Goes.uptime {s : StopAll} {t : Task StopAll Unit} (h : s.Goes w p q t) :
    q.uptime = p.uptime := by
  cases h <;> rfl

theorem Stop.Goes.uptime {s : Stop} {t : Task Stop Nat} (h : s.Goes w p q t) :
    q.uptime = p.uptime := by
  cases h with
  | @takesFound _ found =>
    obtain ⟨slots, heq⟩ := Pool.clearAll_eq found { p with held := false }
    rw [heq]
  | stops _ hr | ends _ hr => exact hr.uptime
  | _ => rfl

theorem Errand.Goes.uptime {e : Errand} {state : Visitor.State} (h : e.Goes w p q state) :
    q.uptime = p.uptime := by
  cases h with
  | ready h | readied h | work h | worked h | stop h | stopped h => exact h.uptime

/-- The slot of a command has an instance that nobody was given for longer than a duration. -/
def Pool.Idle (p : Pool) (age : Duration) (c : Command) (i : Nat) : Prop :=
  ∃ used, p.slot? c = some (.ready i used) ∧ age.nanos < p.uptime - used

theorem Pool.Idle.holds {age : Duration} {c : Command} {i : Nat} (h : p.Idle age c i) :
    p.Holds c i := by
  obtain ⟨used, hslot, -⟩ := h
  exact ⟨used, hslot⟩

/-- What keeps the slots and the time going keeps idle what is. -/
theorem Pool.Idle.later {age : Duration} {c : Command} {i : Nat} (h : p.Idle age c i)
    (hs : q.slots = p.slots) (hu : p.uptime ≤ q.uptime) : q.Idle age c i := by
  obtain ⟨used, hslot, hage⟩ := h
  exact ⟨used, by rwa [slot?, hs], Nat.lt_of_lt_of_le hage (Nat.sub_le_sub_right hu used)⟩

/-! ## Documents -/

theorem Pool.unused_setInstance {i k : Nat} {x y : Instance} (hx : p.instance? k = some x)
    (hy : x.documents = [] → y.documents = []) (hu : p.Unused i) : (p.setInstance k y).Unused i := by
  intro z hz
  rw [instance?_setInstance hx] at hz
  split_ifs at hz with hik
  · cases hz
    exact hy (hu x (hik ▸ hx))
  · exact hu z hz

theorem Pool.Unused.congr {i : Nat} (hu : p.Unused i) (hi : q.instances = p.instances) :
    q.Unused i := by
  intro z hz
  rw [instance?, hi] at hz
  exact hu z hz

/-- An operation opens no document. -/
theorem Pool.Alters.unused {i : Nat} (h : p.Alters q) (hu : p.Unused i) : q.Unused i := by
  cases h with
  | keeps hi => exact hu.congr hi
  | adds b hi =>
    refine Pool.Unused.congr (fun z hz => ?_) hi
    simp only [Pool.addInstance, Pool.instance?, List.getElem?_append] at hz
    split_ifs at hz
    · exact hu z hz
    · rw [List.mem_singleton.mp (List.mem_of_getElem? hz)]
      rfl
  | services hx hy hi =>
    exact (Pool.unused_setInstance hx (fun hnil => hy.documents.trans hnil) hu).congr hi

theorem Instance.documents_closeDocument {x : Instance} (h : x.documents = []) (uri : String) :
    (x.closeDocument uri).1.documents = [] := by
  unfold closeDocument
  simp [h]

namespace Depot

variable {P : Depot → Event → Prop} {s s' t : Depot} {e : Event} {i : Nat}

/-- **Slots.** Nobody else changes the slots that somebody holds on to. -/
theorem slots_of_happens (h : s.Happens e s') (hh : s.pool.held = true)
    (hgo : ∀ n exited verdict, e = .go n exited verdict → s.askedBy? n = none) :
    s'.pool.slots = s.pool.slots := by
  cases h with
  | elapses | lands | rests | visits | besides => rfl
  | starts hj hg => exact (hg.slots_of_held hh :)
  | goes hv hb hg => exact hg.slots_of_held hh ((askedBy?_of_busy hv hb).symm.trans (hgo _ _ _ rfl))
  | givesUp hv hb =>
    change (letGo s.pool _).slots = _
    unfold letGo
    split <;> rfl

theorem uptime_of_happens (h : s.Happens e s') : s.pool.uptime ≤ s'.pool.uptime := by
  cases h with
  | elapses d n => exact Nat.le_add_right _ n
  | lands | rests | visits | besides => exact Nat.le_refl _
  | starts hj hg => exact Nat.le_of_eq hg.uptime.symm
  | goes hv hb hg => exact Nat.le_of_eq hg.uptime.symm
  | givesUp hv hb =>
    change _ ≤ (letGo s.pool _).uptime
    unfold letGo
    split <;> exact Nat.le_refl _

/-! ## Where documents come from -/

/-- Somebody who has an instance opens a document on it. -/
def Event.Opens (i : Nat) (e : Event) : Prop :=
  ∃ uri languageId text, e = .beside i (.opens uri languageId text)

/-- Where a document is open that was not, one was opened. -/
theorem unused_of_act (hu : s.pool.Unused i) (ha : s.act e = some s') (he : ¬ e.Opens i) :
    s'.pool.Unused i := by
  by_cases hb : ∃ k event, e = .beside k event
  · obtain ⟨k, event, rfl⟩ := hb
    simp only [act, Option.bind_eq_bind, Option.bind_eq_some_iff] at ha
    obtain ⟨x, hx, t, ht, ha⟩ := ha
    cases ha
    by_cases hik : i = k
    · subst hik
      refine Pool.unused_setInstance hx (fun hnil => ?_) hu
      cases hev : event.isAnnouncement with
      | false =>
        have hsame := Scene.documents_of_act (start_sceneOf s i x) hev ht
        rwa [hsame, client_sceneOf]
      | true =>
        cases event with
        | opens uri languageId text => exact absurd ⟨uri, languageId, text, rfl⟩ he
        | closes uri =>
          cases ht
          rw [client_sceneOf]
          exact Instance.documents_closeDocument hnil uri
        | _ => cases hev
    · intro z hz
      refine hu z ?_
      change (s.pool.setInstance k t.client).instance? i = some z at hz
      rwa [Pool.instance?_setInstance hx, if_neg hik] at hz
  · exact (alters_of_happens (happens_of_act ha) fun k event he => hb ⟨k, event, he⟩).unused hu

/-- In a run from `s` to `t`, somebody opens a document on an instance. -/
def OpenedBetween (P : Depot → Event → Prop) (s t : Depot) (i : Nat) : Prop :=
  ∃ a b e, Run P s a ∧ e.Opens i ∧ a.act e = some b ∧ Run P b t

/-- An instance that had no open document has none, unless one was opened on it. -/
theorem unused_or_opened (hu : s.pool.Unused i) (hr : Run P s t) :
    t.pool.Unused i ∨ OpenedBetween P s t i := by
  induction hr with
  | refl => exact .inl hu
  | @step a b e hr he ha ih =>
    rcases ih with ih | ⟨c, d, e', hc, hopens, hd, hrun⟩
    · by_cases hopens : e.Opens i
      · exact .inr ⟨a, b, e, hr, hopens, ha, .refl⟩
      · exact .inl (unused_of_act ih ha hopens)
    · exact .inr ⟨c, d, e', hc, hopens, hd, hrun.step he ha⟩

/-! ## Backends that are asked -/

/-- A visitor who takes out what is idle holds on to the slots, and is so far with the search. -/
def Reaps (s : Depot) (n : Nat) (x : Stop.Search) : Prop :=
  ∃ v count, s.visitors[n]? = some v ∧ v.state = .busy (.stop ⟨.idle x.age, count, .asking x⟩)

/-- The instance had no open document when it was asked, and has none, unless one was opened on it
since. -/
def Asked (P : Depot → Event → Prop) (s : Depot) (n : Nat) (age : Duration) (c : Command)
    (i : Nat) : Prop :=
  ∃ r rest found, r.Reaps n ⟨age, c, i, rest, found⟩ ∧ r.pool.Unused i ∧ Run P r s ∧
    (s.pool.Unused i ∨ OpenedBetween P r s i)

theorem Asked.step {age : Duration} {c : Command} (h : Asked P s n age c i) (he : P s e)
    (ha : s.act e = some s') : Asked P s' n age c i := by
  obtain ⟨r, rest, found, hreaps, hu, hr, -⟩ := h
  exact ⟨r, rest, found, hreaps, hu, hr.step he ha, unused_or_opened hu (hr.step he ha)⟩

theorem commands_instances (slots : List (Command × Slot)) :
    ((Slot.instances slots).map (·.1)).Sublist (slots.map (·.1)) := by
  induction slots with
  | nil => exact .slnil
  | cons e slots ih =>
    obtain ⟨c, slot⟩ := e
    cases slot with
    | initializing j => exact ih.cons c
    | ready i used => exact ih.cons_cons c

/-- What is known while an instance is asked: no two commands are the same of those that are asked,
were found or may still be found; those that have not been looked at are in their slots, and the
others are idle; and those that were found have been asked. -/
structure Asking (P : Depot → Event → Prop) (s : Depot) (n : Nat) (x : Stop.Search) : Prop where
  commands : (x.entries.map (·.1)).Nodup
  rest : ∀ e ∈ x.rest, e ∈ s.pool.slots
  current : s.pool.Idle x.age x.command x.index
  idle : ∀ c i, (c, i) ∈ x.found → s.pool.Idle x.age c i
  asked : ∀ c i, (c, i) ∈ x.found → Asked P s n x.age c i

variable {age : Duration} {x : Stop.Search} {found : List (Command × Nat)}

/-- As long as nobody changes the slots, what is known stays true. -/
theorem Asking.step (h : Asking P s n x) (he : P s e) (ha : s.act e = some s')
    (hslots : s'.pool.slots = s.pool.slots) : Asking P s' n x :=
  have hup := uptime_of_happens (happens_of_act ha)
  { commands := h.commands
    rest := fun e he => hslots ▸ h.rest e he
    current := h.current.later hslots hup
    idle := fun c i hci => (h.idle c i hci).later hslots hup
    asked := fun c i hci => (h.asked c i hci).step he ha }

/-- Whoever takes hold of the slots asks the first one that is idle. -/
theorem asking_of_holds {c : Command} {used : Nat} {rest : List (Command × Slot)}
    (hk : s.pool.Keyed) (hrest : ((c, Slot.ready i used) :: rest).Sublist s.pool.slots)
    (hage : age.nanos < s.pool.uptime - used) (hslots : s'.pool.slots = s.pool.slots)
    (hup : s'.pool.uptime = s.pool.uptime) : Asking P s' n ⟨age, c, i, rest, []⟩ where
  commands := by
    have hentries : Stop.Search.entries ⟨age, c, i, rest, []⟩ =
        Slot.instances ((c, .ready i used) :: rest) := by
      rw [Stop.Search.entries, List.append_nil]
      rfl
    rw [hentries]
    exact hk.sublist ((commands_instances _).trans (hrest.map _))
  rest e he := hslots ▸ hrest.subset (List.mem_cons_of_mem _ he)
  current := by
    refine ⟨used, ?_, by rwa [hup]⟩
    rw [Pool.slot?, hslots]
    exact (Pool.mem_slots_iff hk).mp (hrest.subset List.mem_cons_self)
  idle c i hci := by cases hci
  asked c i hci := by cases hci

/-- A count finds no command twice. -/
theorem nodup_of_counts {slots : List (Command × Slot)} (h : (x.entries.map (·.1)).Nodup)
    (hf : x.Counts p found) (hs : slots.Sublist x.rest) :
    ((Slot.instances slots ++ found).map (·.1)).Nodup := by
  have hsub : (Slot.instances slots ++ x.found).Sublist (Slot.instances x.rest ++ x.found) :=
    (hs.filterMap _).append_right _
  rcases hf with ⟨rfl, -⟩ | rfl
  · have hperm : (Slot.instances slots ++ (x.found ++ [(x.command, x.index)])).Perm
        ((x.command, x.index) :: (Slot.instances slots ++ x.found)) := by
      rw [← List.append_assoc]
      exact List.perm_append_singleton _ _
    exact (hperm.map _).nodup_iff.mpr (h.sublist ((hsub.cons_cons _).map _))
  · exact h.sublist ((hsub.cons _).map _)

/-- Whoever has counted the documents of an instance knows about all that are found. -/
theorem Asking.counted (h : Asking P s n x) (hs : s.Reaps n x) (hf : x.Counts s.pool found)
    {c : Command} (hci : (c, i) ∈ found) : s.pool.Idle x.age c i ∧ Asked P s n x.age c i := by
  rcases hf with ⟨rfl, hu⟩ | rfl
  · rcases List.mem_append.mp hci with hci | hci
    · exact ⟨h.idle c i hci, h.asked c i hci⟩
    · cases List.mem_singleton.mp hci
      exact ⟨h.current, s, x.rest, x.found, hs, hu, .refl, .inl hu⟩
  · exact ⟨h.idle c i hci, h.asked c i hci⟩

/-- Whoever has asked an instance asks the next one that is idle. -/
theorem Asking.asks {c : Command} {used : Nat} {rest : List (Command × Slot)}
    (h : Asking P s n x) (hs : s.Reaps n x) (hk : s.pool.Keyed) (hf : x.Counts s.pool found)
    (hrest : ((c, Slot.ready i used) :: rest).Sublist x.rest)
    (hage : x.age.nanos < s.pool.uptime - used) (he : P s e) (ha : s.act e = some s')
    (hslots : s'.pool.slots = s.pool.slots) : Asking P s' n ⟨x.age, c, i, rest, found⟩ := by
  have hup := uptime_of_happens (happens_of_act ha)
  have hslot : s.pool.slot? c = some (.ready i used) :=
    (Pool.mem_slots_iff hk).mp (h.rest _ (hrest.subset List.mem_cons_self))
  have hidle : s.pool.Idle x.age c i := ⟨used, hslot, hage⟩
  exact {
    commands := nodup_of_counts h.commands hf hrest
    rest := fun e he => hslots ▸ h.rest e (hrest.subset (List.mem_cons_of_mem _ he))
    current := hidle.later hslots hup
    idle := fun d k hdk => (h.counted hs hf hdk).1.later hslots hup
    asked := fun d k hdk => (h.counted hs hf hdk).2.step he ha }

/-- What is known of all who take out what is idle. -/
def Informed (P : Depot → Event → Prop) (s : Depot) : Prop :=
  ∀ {n : Nat} {v : Visitor} {choice : Stop.Choice} {count : Nat} {x : Stop.Search},
    s.visitors[n]? = some v → v.state = .busy (.stop ⟨choice, count, .asking x⟩) →
      choice = .idle x.age ∧ Asking P s n x

theorem Informed.step (h : Informed P s) (ho : s.Orderly) (he : P s e) (ha : s.act e = some s') :
    Informed P s' := by
  intro n v' choice count x hv' hb'
  have hhappens := happens_of_act ha
  -- A visitor who does nothing in this step knows what was known before.
  have hother : s.visitors[n]? = some v' →
      (∀ m exited verdict, e = .go m exited verdict → m ≠ n) →
        choice = .idle x.age ∧ Asking P s' n x := by
    intro hv hne
    obtain ⟨hage, hasking⟩ := h hv hb'
    have hself : s.askedBy? n = some x.entries := by
      rw [askedBy?_of_busy hv hb', Errand.asked?]
    refine ⟨hage, hasking.step he ha (slots_of_happens hhappens (ho.guarded.finds hself).1 ?_)⟩
    intro m exited verdict hgo
    cases hm : s.askedBy? m with
    | none => rfl
    | some es => exact absurd (ho.guarded.only hm hself) (hne m exited verdict hgo)
  cases hhappens with
  | elapses | lands | rests | starts | besides => exact hother hv' nofun
  | visits wish =>
    simp only [List.getElem?_append] at hv'
    split_ifs at hv' with hn
    · exact hother hv' nofun
    · rw [List.mem_singleton.mp (List.mem_of_getElem? hv')] at hb'
      cases wish <;> cases hb'
  | givesUp hu hb =>
    rw [visitors_setVisitor hu] at hv'
    split_ifs at hv' with hm
    · cases hv'
      cases hb'
    · exact hother hv' nofun
  | @goes m exited verdict u d q state hu hb hg =>
    rw [visitors_setVisitor hu] at hv'
    split_ifs at hv' with hm
    · subst hm
      cases hv'
      cases hb'
      cases hg with
      | @stop before _ hs =>
        obtain ⟨choice, count, phase⟩ := before
        cases hs with
        | holds hp hc hh hrest hage =>
          exact ⟨hc, asking_of_holds ho.marked.keyed hrest hage rfl rfl⟩
        | asks hp hf hrest hage =>
          cases hp
          obtain ⟨rfl, hasking⟩ := h hu hb
          exact ⟨rfl, hasking.asks ⟨u, count, hu, hb⟩ ho.marked.keyed hf hrest hage he ha rfl⟩
    · refine hother hv' fun m' exited' verdict' heq => ?_
      cases heq
      exact fun hmn => hm hmn.symm

/-- How far a visitor is who has taken so many instances out. -/
def Finishing (k : Nat) : Visitor.State → Prop
  | .busy (.stop s) => s.count = k ∧ ∃ rest, s.phase = .stopping rest
  | .busy _ => False
  | .done r => r = .stopped k
  | .gone _ => True

/-- A visitor stops what was taken out, and has in hand what is not terminated of it. -/
def Finishes (s : Depot) (n : Nat) (taken : List (Command × Nat)) : Prop :=
  ∃ v, s.visitors[n]? = some v ∧ Finishing taken.length v.state ∧
    ∀ c i, (c, i) ∈ taken → s.pool.Lives i → ∃ h, (i, h) ∈ v.state.hands

theorem finishing_of_goes {d : Errand} {state : Visitor.State} {k : Nat}
    (h : Finishing k (.busy d)) (hg : d.Goes w p q state) : Finishing k state := by
  cases hg with
  | ready | readied | work | worked => cases h
  | stop hs =>
    obtain ⟨hcount, rest, hp⟩ := h
    cases hs with
    | takes hp' | takesAll hp' | holds hp' | takesNone hp' | asks hp' | takesFound hp' =>
      rw [hp] at hp'
      cases hp'
    | stops => exact ⟨hcount, _, rfl⟩
  | stopped hs =>
    cases hs with
    | ends => exact congrArg Reply.stopped h.1

variable {taken : List (Command × Nat)}

theorem Finishes.step (h : s.Finishes n taken) (hr : Reachable P s)
    (hbrings : ∀ c i, (c, i) ∈ taken → s.pool.Brings c i) (ha : s.act e = some s') :
    s'.Finishes n taken := by
  obtain ⟨v, hv, hfinishing, hhands⟩ := h
  have he := happens_of_act ha
  have hlives : ∀ c i, (c, i) ∈ taken → s'.pool.Lives i → s.pool.Lives i :=
    fun c i hci => lives_of_brings hr he (hbrings c i hci)
  obtain ⟨v', hv', -⟩ := visitor_of_happens he hv
  refine ⟨v', hv', ?_⟩
  cases fares_of_happens he hv' with
  | stays hu =>
    obtain rfl := Option.some.inj (hv.symm.trans hu)
    exact ⟨hfinishing, fun c i hci hl => hhands c i hci (hlives c i hci hl)⟩
  | comes hvisit hn =>
    exact absurd (List.getElem?_eq_some_iff.mp hv).1 (Nat.not_lt_of_le hn)
  | goes hu hb hg heq =>
    obtain rfl := Option.some.inj (hv.symm.trans hu)
    subst heq
    rw [hb] at hfinishing
    refine ⟨finishing_of_goes hfinishing hg, fun c i hci hl => ?_⟩
    obtain ⟨z, hz⟩ := hhands c i hci (hlives c i hci hl)
    have hbusy := hz
    rw [hb] at hbusy
    exact ((orderly_of_reachable hr).handles hu hb hg).stays hbusy
      ((closing_of_reachable hr).hands hu hz).closes hl
  | leaves hu hb heq =>
    obtain rfl := Option.some.inj (hv.symm.trans hu)
    subst heq
    rw [hb] at hhands
    exact ⟨trivial, fun c i hci hl => hhands c i hci (hlives c i hci hl)⟩

theorem reachable_idling : Reachable (fun _ _ => True) idling := by
  have hidling : sample.follow ([.visit (.ready python), go 0, go 0] ++ bringing 0 ++ [go 0]) =
      some idling := by rfl
  exact ⟨_, _, _, _, _, Run.of_follow (fun _ _ _ => trivial) hidling⟩

/-- An instance is in its slot and some time has passed; visitor 1 comes to take out what is idle,
takes hold of the slots, and is about to count the documents of the instance. -/
def reaping : Depot :=
  (idling.follow [.elapse 0 1, .visit (.stop (.idle .zero)), go 1]).getD sample

/-- The visitor has emptied the slots. -/
def reaped : Depot := (reaping.act (go 1)).getD sample

/-- Another backend. -/
def rust : Backend := ⟨["rust-analyzer"], [".rs"], "rust"⟩

/-- A second instance comes into its slot, and some time passes. Visitor 2 comes to take out what is
idle, has counted the documents of the first instance, and is about to count those of the second, when
somebody who has the first one opens a document on it. -/
def reopening : List Event :=
  [.visit (.ready rust), go 1, go 1] ++ bringing 1 ++
    [go 1, .elapse 0 1, .visit (.stop (.idle .zero)), go 2, go 2,
      .beside 0 (.opens "file:///repo/a.py" "python" "x")]

def reopened : Depot := (idling.follow reopening).getD sample

/-- **In use.** An instance can be taken out as idle with a document open: one that was opened after its
documents had been counted, while those of another instance were. -/
theorem reaped_with_document : ∃ (s s' : Depot) (v : Visitor) (x : Instance),
    Reachable (fun _ _ => True) s ∧ s.visitors[2]? = some v ∧ v.wish = .stop (.idle .zero) ∧
      s.act (go 2) = some s' ∧ s.pool.Holds python.command 0 ∧ ¬ s'.pool.Holds python.command 0 ∧
      s.pool.instance? 0 = some x ∧ x.documents ≠ [] := by
  have hfollow : idling.follow reopening = some reopened := by rfl
  have hwish : (reopened.visitors[2]?).map (·.wish) = some (.stop (.idle .zero)) := by rfl
  have hact : (reopened.act (go 2)).map (·.pool.slots) = some [] := by rfl
  have hopen : (reopened.pool.instance? 0).map (·.documents.length) = some 1 := by rfl
  obtain ⟨v, hv, hw⟩ := Option.map_eq_some_iff.mp hwish
  obtain ⟨s', hs', hempty⟩ := Option.map_eq_some_iff.mp hact
  obtain ⟨x, hx, hlength⟩ := Option.map_eq_some_iff.mp hopen
  refine ⟨reopened, s', v, x, ?_, hv, hw, hs', ⟨0, by rfl⟩, not_holds_of_emptied hempty, hx, ?_⟩
  · exact reachable_idling.run (Run.of_follow (fun _ _ _ => trivial) hfollow)
  · rintro hnil
    rw [hnil] at hlength
    cases hlength

end Depot

end DiagnosticBroker
