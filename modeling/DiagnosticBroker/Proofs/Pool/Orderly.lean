import DiagnosticBroker.Proofs.Pool.Markers

/-!
# Depots are orderly

What visitors know of starts and instances is true: whoever waits for a start waits for one of the
command that is wanted, and whoever has an instance has one that such a start has brought. At most
one visitor holds on to the slots, and what this visitor has found in them stays there.

Results:
* `Errand.Goes.turn`: what a visitor's step does to slots and starts.
* `orderly_of_reachable`: depots are orderly.
* `owned_of_reachable`: a start under way has the slot of its command, unless somebody takes it away.
-/

namespace DiagnosticBroker

open Pool (Grows Thins Guards Spares Marked Owned)

variable {w : Surroundings} {p q : Pool} {n : Nat}

/-! ## What visitors know -/

/-- What a caller knows who wants a ready instance. -/
def Ensure.Sound (p : Pool) (e : Ensure) : Prop :=
  match e.phase with
  | .probe i => p.Brings e.backend.command i
  | .touch i => p.Brings e.backend.command i
  | .retire i _ => p.Brings e.backend.command i
  | .enlist j seen => seen = 0 ∧ p.Knows e.backend.command j
  | .parked j seen => seen = 0 ∧ p.Knows e.backend.command j
  | .joining j => p.Knows e.backend.command j
  | _ => True

/-- What work knows of its instance. -/
def Execute.Sound (p : Pool) (x : Execute Nat) : Prop :=
  match x.phase with
  | .ensuring e => e.backend = x.backend ∧ e.Sound p
  | .running i r => r = i ∧ p.Brings x.backend.command i
  | .retiring i _ => p.Brings x.backend.command i
  | _ => True

/-- What a visitor knows. -/
def Errand.Sound (p : Pool) : Errand → Prop
  | .ready e => e.Sound p
  | .work x => x.Sound p
  | .stop _ => True

theorem Ensure.Sound.grows {e : Ensure} (h : e.Sound p) (hg : Grows p q) : e.Sound q := by
  unfold Ensure.Sound at h ⊢
  cases hp : e.phase <;> simp only [hp] at h ⊢
  case probe | touch | retire => exact h.grows hg
  case enlist | parked => exact ⟨h.1, h.2.grows hg⟩
  case joining => exact h.grows hg

theorem Errand.Sound.grows {e : Errand} (h : e.Sound p) (hg : Grows p q) : e.Sound q := by
  cases e with
  | ready e => exact Ensure.Sound.grows h hg
  | work x =>
    simp only [Errand.Sound, Execute.Sound] at h ⊢
    cases hp : x.phase <;> simp only [hp] at h ⊢
    case ensuring => exact ⟨h.1, h.2.grows hg⟩
    case running => exact ⟨h.1, h.2.grows hg⟩
    case retiring => exact h.grows hg
  | stop s => trivial

theorem StartJob.phase_of_result {a : StartJob} {i : Nat} (h : a.result? = some (.ok i)) :
    a.phase = .over (.ok i) := by
  unfold StartJob.result? at h
  cases hp : a.phase <;> simp only [hp] at h <;> cases h
  rfl

/-- A caller's step leaves the caller with something true. -/
theorem Ensure.Goes.sound {e e' : Ensure} (h : e.Goes w p q (.running e')) (hm : p.Marked)
    (he : e.Sound p) : e'.Sound q ∧ e'.backend = e.backend := by
  unfold Ensure.Sound at he
  cases h with
  | finds hp hs => exact ⟨hm.holds hs, rfl⟩
  | passes hp =>
    simp only [hp] at he
    exact ⟨he, rfl⟩
  | rejects hp =>
    rcases hp with ⟨-, hs⟩ | hp
    · exact ⟨hm.holds hs, rfl⟩
    · simp only [hp] at he
      exact ⟨he, rfl⟩
  | retires hp hr =>
    simp only [hp] at he
    exact ⟨he.grows hr.grows, rfl⟩
  | enlists hp hs =>
    obtain ⟨a, ha, hw, hc⟩ := hm.marks hs
    have hseen := hm.notices ha
    rw [hw] at hseen
    exact ⟨⟨by simp [ha, hseen], a, ha, hc⟩, rfl⟩
  | parks hp hs =>
    simp only [hp] at he
    exact ⟨he, rfl⟩
  | claims hp hh hs =>
    exact ⟨⟨_, (Pool.start?_claim p e.backend).mpr (.inr ⟨rfl, rfl⟩), rfl⟩, rfl⟩
  | retired | returns | misses => exact ⟨trivial, rfl⟩

/-- Whoever is served has an instance that a start of the command has brought. -/
theorem Ensure.Goes.brings {e : Ensure} {i : Nat} (h : e.Goes w p q (.ended (.ok i)))
    (he : e.Sound p) : q.Brings e.backend.command i := by
  have hg := h.grows
  unfold Ensure.Sound at he
  cases h with
  | touches hp =>
    simp only [hp] at he
    exact he.grows hg
  | @joins j a r hp ha hr =>
    simp only [hp] at he
    obtain ⟨b, hb, hc⟩ := he
    rw [ha] at hb
    cases hb
    exact ⟨j, a, ha, StartJob.phase_of_result hr, hc⟩

/-- How far a wish is. -/
def Errand.wish : Errand → Wish
  | .ready e => .ready e.backend
  | .work x => .work x.backend
  | .stop s => .stop s.choice

/-- A visitor's step leaves the visitor with something true, and with the same wish. -/
theorem Errand.Goes.sound {e e' : Errand} (h : e.Goes w p q (.busy e')) (hm : p.Marked)
    (he : e.Sound p) : e'.Sound q ∧ e'.wish = e.wish := by
  have hg := h.grows
  cases h with
  | ready h =>
    obtain ⟨hs, hb⟩ := h.sound hm he
    exact ⟨hs, by rw [wish, wish, hb]⟩
  | stop h =>
    refine ⟨trivial, ?_⟩
    cases h <;> rfl
  | @work x x' h =>
    simp only [Errand.Sound, Execute.Sound] at he
    cases h with
    | ensures hp h =>
      simp only [hp] at he
      obtain ⟨hs, hb⟩ := h.sound hm he.2
      exact ⟨⟨hb.trans he.1, hs⟩, rfl⟩
    | begins hp h =>
      simp only [hp] at he
      have hbrings := h.brings he.2
      rw [he.1] at hbrings
      exact ⟨⟨rfl, hbrings⟩, rfl⟩
    | rejects hp =>
      simp only [hp] at he
      exact ⟨he.2, rfl⟩
    | retires hp h =>
      simp only [hp] at he
      exact ⟨he.grows hg, rfl⟩
    | retired => exact ⟨trivial, rfl⟩
    | restarts => exact ⟨⟨rfl, trivial⟩, rfl⟩

/-! ## What visitors do to slots and starts -/

/-- The instances in slots. -/
def Slot.instances (slots : List (Command × Slot)) : List (Command × Nat) :=
  slots.filterMap fun e => e.2.index?.map fun i => (e.1, i)

/-- The instance that is asked, those in the slots that have not been looked at, and those that are
found. -/
def Stop.Search.entries (x : Stop.Search) : List (Command × Nat) :=
  (x.command, x.index) :: (Slot.instances x.rest ++ x.found)

/-- The instances that a visitor has found, or may still find, who holds on to the slots. -/
def Errand.asked? : Errand → Option (List (Command × Nat))
  | .stop ⟨_, _, .asking x⟩ => some x.entries
  | _ => none

def Visitor.State.asked? : Visitor.State → Option (List (Command × Nat))
  | .busy e => e.asked?
  | _ => none

/-- What a visitor's step does to slots and starts. -/
inductive Errand.Turn (p q : Pool) (e : Errand) (state : Visitor.State) : Prop where
  | spares (he : e.asked? = none) (hs : state.asked? = none) (h : Spares p q)
  | claims (he : e.asked? = none) (hs : state.asked? = none) {b : Backend} (hh : p.held = false)
      (hb : p.slot? b.command = none) (hq : q = p.claim b)
  | takes (hw : e.wish.isShutdown = true) (he : e.asked? = none) (hs : state.asked? = none)
      (hh : p.held = false) (hq : q.held = false) (h : Thins p q)
  | holds {found : List (Command × Nat)} (he : e.asked? = none) (hs : state.asked? = some found)
      (hh : p.held = false) (hf : ∀ x ∈ found, ∃ used, (x.1, Slot.ready x.2 used) ∈ p.slots)
      (hq : q = { p with held := true })
  | asks {es es' : List (Command × Nat)} (he : e.asked? = some es) (hs : state.asked? = some es')
      (hsub : ∀ x ∈ es', x ∈ es) (hq : q = { p with held := true })
  | lets {es found : List (Command × Nat)} (he : e.asked? = some es) (hs : state.asked? = none)
      (hsub : ∀ x ∈ found, x ∈ es) (hq : q = Pool.clearAll { p with held := false } found)

theorem Retire.Goes.spares {c : Command} {i : Nat} {r : Retire} {t : Task Retire Unit}
    (h : r.Goes w p c i q t) : Spares p q := by
  cases h with
  | removes hh => exact Pool.spares_clearInstance hh c i
  | stops hx hs | stopped hx hs => exact .of_eq rfl rfl rfl

theorem Ensure.Goes.spares_or_claims {e : Ensure} {t : Task Ensure StartResult}
    (h : e.Goes w p q t) : Spares p q ∨
      p.held = false ∧ p.slot? e.backend.command = none ∧ q = p.claim e.backend := by
  cases h with
  | touches hp => exact .inl (Pool.spares_touchSlot p _)
  | retires hp hr | retired hp hr => exact .inl hr.spares
  | claims hp hh hs => exact .inr ⟨hh, hs, rfl⟩
  | _ => exact .inl (.of_eq rfl rfl rfl)

theorem Execute.Goes.spares_or_claims {x : Execute Nat} {t : Task (Execute Nat) (Except Fault Nat)}
    (h : x.Goes w p q t) : Spares p q ∨
      ∃ b : Backend, p.held = false ∧ p.slot? b.command = none ∧ q = p.claim b := by
  have hensure : ∀ {e : Ensure} {t}, e.Goes w p q t → Spares p q ∨
      ∃ b : Backend, p.held = false ∧ p.slot? b.command = none ∧ q = p.claim b :=
    fun he => he.spares_or_claims.imp_right fun h => ⟨_, h⟩
  cases h with
  | ensures hp he | begins hp he | fails hp he => exact hensure he
  | retires hp hr | retired hp hr => exact .inl hr.spares
  | _ => exact .inl (.of_eq rfl rfl rfl)

theorem StopAll.Goes.spares {s : StopAll} {t : Task StopAll Unit} (h : s.Goes w p q t) :
    Spares p q := by
  cases h <;> exact .of_eq rfl rfl rfl

theorem asked?_of_phase {s : Stop} {x : Stop.Search} (h : s.phase = .asking x) :
    (Errand.stop s).asked? = some x.entries := by
  cases s
  cases h
  rfl

theorem asked?_of_not_asking {s : Stop} (h : ∀ x, s.phase ≠ .asking x) :
    (Errand.stop s).asked? = none := by
  obtain ⟨choice, count, phase⟩ := s
  cases phase with
  | asking x => exact absurd rfl (h x)
  | begin | stopping => rfl

theorem Slot.mem_instances {slots : List (Command × Slot)} {e : Command × Nat} :
    e ∈ instances slots ↔ ∃ used, (e.1, Slot.ready e.2 used) ∈ slots := by
  rw [instances, List.mem_filterMap]
  constructor
  · rintro ⟨⟨c, slot⟩, hmem, hslot⟩
    cases slot with
    | initializing j => cases hslot
    | ready i used =>
      cases hslot
      exact ⟨used, hmem⟩
  · rintro ⟨used, hmem⟩
    exact ⟨_, hmem, rfl⟩

theorem Stop.Search.mem_entries {x : Search} {e : Command × Nat} : e ∈ x.entries ↔
    e = (x.command, x.index) ∨ (∃ used, (e.1, Slot.ready e.2 used) ∈ x.rest) ∨ e ∈ x.found := by
  rw [entries, List.mem_cons, List.mem_append, Slot.mem_instances]

/-- What is found by a count is the instance that was asked, or was found before. -/
theorem Stop.Search.Counts.mem {x : Search} {found : List (Command × Nat)} (h : x.Counts p found)
    {e : Command × Nat} (he : e ∈ found) : e = (x.command, x.index) ∨ e ∈ x.found := by
  rcases h with ⟨rfl, -⟩ | rfl
  · rw [List.mem_append, List.mem_singleton] at he
    exact he.symm
  · exact .inr he

/-- A search that goes on looks at nothing that it has not looked for before. -/
theorem Stop.Search.Counts.entries_subset {x : Search} {found : List (Command × Nat)}
    (h : x.Counts p found) {c : Command} {i used : Nat} {rest : List (Command × Slot)}
    (hrest : ((c, Slot.ready i used) :: rest).Sublist x.rest) {e : Command × Nat}
    (he : e ∈ Search.entries ⟨x.age, c, i, rest, found⟩) : e ∈ x.entries := by
  rw [mem_entries] at he ⊢
  rcases he with rfl | ⟨used', hmem⟩ | hmem
  · exact .inr (.inl ⟨used, hrest.subset List.mem_cons_self⟩)
  · exact .inr (.inl ⟨used', hrest.subset (List.mem_cons_of_mem _ hmem)⟩)
  · exact (h.mem hmem).imp_right .inr

/-- **Turns.** What a visitor's step does to slots and starts. -/
theorem Errand.Goes.turn {e : Errand} {state : Visitor.State} (h : e.Goes w p q state) :
    e.Turn p q state := by
  have hboth : ∀ {b : Backend}, e.asked? = none → state.asked? = none →
      (Spares p q ∨ p.held = false ∧ p.slot? b.command = none ∧ q = p.claim b) →
      e.Turn p q state := by
    rintro b he hs (h | ⟨hh, hb, hq⟩)
    · exact .spares he hs h
    · exact .claims he hs hh hb hq
  have hwork : ∀ {x : Execute Nat} {t}, x.Goes w p q t → e.asked? = none → state.asked? = none →
      e.Turn p q state := by
    intro x t hx he hs
    rcases hx.spares_or_claims with h | ⟨b, h⟩
    · exact .spares he hs h
    · exact hboth he hs (.inr h)
  cases h with
  | ready h => exact hboth rfl rfl h.spares_or_claims
  | readied h => exact hboth rfl rfl h.spares_or_claims
  | work h => exact hwork h rfl rfl
  | worked h => exact hwork h rfl rfl
  | stopped h =>
    cases h with
    | ends hp hr => exact .spares (asked?_of_not_asking (by simp [hp])) rfl hr.spares
  | stop h =>
    cases h with
    | takes hp hc hh count =>
      refine .takes ?_ (asked?_of_not_asking (by simp [hp])) rfl hh hh (Pool.thins_clearSlot p _)
      rw [wish, hc]
      rfl
    | takesAll hp hc hh count =>
      refine .takes ?_ (asked?_of_not_asking (by simp [hp])) rfl hh hh ?_
      · rw [wish, hc]
        rfl
      · exact ⟨rfl, fun _ => List.nodup_nil, fun hm => (by cases hm),
          fun ⟨_, hm⟩ => (by cases hm)⟩
    | @holds _ _ _ used _ hp hc hh hrest =>
      refine .holds (asked?_of_not_asking (by simp [hp])) rfl hh (fun x hx => ?_) rfl
      rcases Stop.Search.mem_entries.mp hx with rfl | ⟨used', hmem⟩ | hmem
      · exact ⟨used, hrest.subset List.mem_cons_self⟩
      · exact ⟨used', hrest.subset (List.mem_cons_of_mem _ hmem)⟩
      · cases hmem
    | takesNone hp => exact .spares (asked?_of_not_asking (by simp [hp])) rfl (.of_eq rfl rfl rfl)
    | asks hp hf hrest =>
      exact .asks (asked?_of_phase hp) rfl (fun x hx => hf.entries_subset hrest hx) rfl
    | takesFound hp hf =>
      refine .lets (asked?_of_phase hp) rfl (fun x hx => Stop.Search.mem_entries.mpr ?_) rfl
      exact (hf.mem hx).imp_right .inr
    | stops hp hr => exact .spares (asked?_of_not_asking (by simp [hp])) rfl hr.spares

theorem Pool.Thins.trans {r : Pool} (h : Thins p q) (h' : Thins q r) : Thins p r :=
  ⟨h'.starts.trans h.starts, fun hk => h'.keyed (h.keyed hk), fun hm => h.marks (h'.marks hm),
    fun hm => h.holds (h'.holds hm)⟩

theorem Pool.thins_held (p : Pool) (b : Bool) : Thins p { p with held := b } :=
  ⟨rfl, id, id, id⟩

/-- A visitor's step fills no slot, or takes an empty one for a new start. -/
theorem Errand.Turn.thins_or_claims {e : Errand} {state : Visitor.State} (h : e.Turn p q state) :
    Thins p q ∨ ∃ b : Backend, p.slot? b.command = none ∧ q = p.claim b := by
  cases h with
  | spares he hs h => exact .inl h.toThins
  | claims he hs hh hb hq => exact .inr ⟨_, hb, hq⟩
  | takes hw he hs hh hq h => exact .inl h
  | holds he hs hh hf hq =>
    subst hq
    exact .inl (Pool.thins_held p true)
  | asks he hs hsub hq =>
    subst hq
    exact .inl (Pool.thins_held p true)
  | lets he hs hsub hq =>
    subst hq
    exact .inl ((Pool.thins_held p false).trans (Pool.thins_clearAll _ _))

theorem Pool.Marked.turn {e : Errand} {state : Visitor.State} (hm : p.Marked) (h : e.Turn p q state) :
    q.Marked := by
  rcases h.thins_or_claims with h | ⟨b, -, rfl⟩
  · exact hm.thins h
  · exact hm.claim b

/-! ## Whoever holds on to the slots -/

/-- Only one visitor holds on to the slots, and what this one has found in them is still there.
`asked` tells what each visitor has found. -/
structure Pool.Guarded (p : Pool) (asked : Nat → Option (List (Command × Nat))) : Prop where
  finds : ∀ {n es}, asked n = some es → p.held = true ∧ ∀ x ∈ es, p.Holds x.1 x.2
  only : ∀ {n m es es'}, asked n = some es → asked m = some es' → n = m
  held : p.held = true → ∃ n es, asked n = some es

variable {asked : Nat → Option (List (Command × Nat))}

theorem Pool.Guarded.congr (h : p.Guarded asked) (hh : q.held = p.held) (hg : Guards p q) :
    q.Guarded asked where
  finds ha :=
    have hf := h.finds ha
    ⟨hh.trans hf.1, fun x hx => hg hf.1 _ _ (hf.2 x hx)⟩
  only := h.only
  held hq := h.held (hh ▸ hq)

theorem Pool.Guarded.none_of_free (h : p.Guarded asked) (hh : p.held = false) (m : Nat) :
    asked m = none := by
  cases ha : asked m with
  | none => rfl
  | some es =>
    have hf := (h.finds ha).1
    rw [hh] at hf
    cases hf

/-- Nobody holds on to the slots any longer. -/
theorem Pool.Guarded.free (hh : p.held = false) (ha : ∀ m, asked m = none) : p.Guarded asked where
  finds h := by rw [ha] at h; cases h
  only h := by rw [ha] at h; cases h
  held h := by rw [hh] at h; cases h

theorem update_eq_self {a : Option (List (Command × Nat))} (h : asked n = a) :
    Function.update asked n a = asked := by
  rw [← h, Function.update_eq_self]

theorem Pool.Guarded.only_update (h : p.Guarded asked) {es : List (Command × Nat)}
    (hn : asked n = some es) (m : Nat) : Function.update asked n none m = none := by
  by_cases hm : m = n
  · rw [hm, Function.update_self]
  · rw [Function.update_of_ne hm]
    cases ha : asked m with
    | none => rfl
    | some es' => exact absurd (h.only ha hn) hm

theorem Pool.Guarded.turn {e : Errand} {state : Visitor.State} (h : p.Guarded asked)
    (hk : p.Keyed) (hn : asked n = e.asked?) (ht : e.Turn p q state) :
    q.Guarded (Function.update asked n state.asked?) := by
  cases ht with
  | spares he hs ht =>
    rw [hs, update_eq_self (hn.trans he)]
    exact h.congr ht.held ht.guards
  | claims he hs hh hb hq =>
    subst hq
    rw [hs, update_eq_self (hn.trans he)]
    exact .free hh (h.none_of_free hh)
  | takes hw he hs hh hq ht =>
    rw [hs, update_eq_self (hn.trans he)]
    exact .free hq (h.none_of_free hh)
  | @holds found he hs hh hf hq =>
    subst hq
    rw [hs]
    have hnone := h.none_of_free hh
    have honly : ∀ {m es}, Function.update asked n (some found) m = some es → m = n ∧ es = found := by
      intro m es hm
      by_cases hmn : m = n
      · rw [hmn, Function.update_self] at hm
        exact ⟨hmn, (Option.some.inj hm).symm⟩
      · rw [Function.update_of_ne hmn, hnone] at hm
        cases hm
    refine ⟨fun {m es} hm => ⟨rfl, fun x hx => ?_⟩, fun hm hm' => ?_, fun _ => ?_⟩
    · obtain ⟨-, rfl⟩ := honly hm
      obtain ⟨used, hmem⟩ := hf x hx
      exact ⟨used, (Pool.mem_slots_iff hk).mp hmem⟩
    · exact (honly hm).1.trans (honly hm').1.symm
    · exact ⟨n, found, Function.update_self ..⟩
  | @asks es es' he hs hsub hq =>
    subst hq
    rw [hs]
    have hold := hn.trans he
    have hsome : ∀ {m es₁}, Function.update asked n (some es') m = some es₁ →
        ∃ es₂, asked m = some es₂ ∧ ∀ x ∈ es₁, x ∈ es₂ := by
      intro m es₁ hm
      by_cases hmn : m = n
      · rw [hmn, Function.update_self] at hm
        cases hm
        exact ⟨es, by rw [hmn, hold], hsub⟩
      · rw [Function.update_of_ne hmn] at hm
        exact ⟨es₁, hm, fun _ => id⟩
    refine ⟨fun {m es₁} hm => ?_, fun hm hm' => ?_, fun _ => ⟨n, es', Function.update_self ..⟩⟩
    · obtain ⟨es₂, ha, hin⟩ := hsome hm
      exact ⟨rfl, fun x hx => (h.finds ha).2 x (hin x hx)⟩
    · obtain ⟨_, ha, -⟩ := hsome hm
      obtain ⟨_, ha', -⟩ := hsome hm'
      exact h.only ha ha'
  | lets he hs hsub hq =>
    subst hq
    rw [hs]
    exact .free (Pool.held_clearAll _ _) (h.only_update (hn.trans he))

/-- A start changes no slot that somebody holds on to. -/
theorem Pool.Guarded.start {j j' : StartJob} (h : p.Guarded asked) (hg : j.Goes w p n q j') :
    (q.setStart n j').Guarded asked := by
  refine h.congr ?_ fun hheld c i hi => ?_
  · rcases hg.cases with ⟨-, hh, -⟩ | he
    · exact hh
    · exact he.held.trans he.unheld.symm
  · rcases hg.cases with ⟨hslots, -⟩ | he
    · obtain ⟨used, hi⟩ := hi
      exact ⟨used, by rwa [Pool.slot?, Pool.setStart, hslots]⟩
    · rw [he.unheld] at hheld
      cases hheld

/-- Only a shutdown takes a slot away from a start: what is found in the slots by somebody who holds
on to them is an instance. -/
theorem Errand.Turn.marks {e : Errand} {state : Visitor.State} {c : Command} {j : Nat}
    (ht : e.Turn p q state) (h : p.Guarded asked) (hn : asked n = e.asked?)
    (hw : e.wish.isShutdown = false) (hm : p.Marks c j) : q.Marks c j := by
  cases ht with
  | spares he hs ht => exact ht.spares hm
  | claims he hs hh hb hq =>
    subst hq
    refine Pool.marks_claim.mpr ?_
    rw [if_neg]
    · exact hm
    · rintro rfl
      rw [Pool.Marks, hb] at hm
      cases hm
  | takes hw' he hs hh hq ht =>
    rw [hw] at hw'
    cases hw'
  | holds he hs hh hf hq =>
    subst hq
    exact hm
  | asks he hs hsub hq =>
    subst hq
    exact hm
  | lets he hs hsub hq =>
    subst hq
    refine Pool.marks_clearAll.mpr ⟨fun hc => ?_, hm⟩
    obtain ⟨x, hx, rfl⟩ := List.mem_map.mp hc
    exact hm.not_holds ((h.finds (hn.trans he)).2 x (hsub x hx))

/-- A visitor who takes no slot away from a start leaves every start under way with its slot. -/
theorem Pool.Owned.turn {e : Errand} {state : Visitor.State} (ho : p.Owned) (ht : e.Turn p q state)
    (hspare : ∀ c j, p.Marks c j → q.Marks c j) : q.Owned := by
  cases ht with
  | spares he hs ht => exact ho.congr ht.starts ht.spares
  | claims he hs hh hb hq =>
    subst hq
    exact ho.claim hb
  | takes hw he hs hh hq ht => exact ho.congr ht.starts (hspare _ _)
  | holds he hs hh hf hq =>
    subst hq
    exact ho.congr rfl id
  | asks he hs hsub hq =>
    subst hq
    exact ho.congr rfl id
  | lets he hs hsub hq =>
    subst hq
    exact ho.congr (Pool.starts_clearAll _ _) (hspare _ _)

/-! ## All depots -/

namespace Depot

variable {P : Depot → Event → Prop} {s s' : Depot} {e : Event} {v : Visitor}

/-- What a visitor has found who holds on to the slots. -/
def askedBy? (s : Depot) (n : Nat) : Option (List (Command × Nat)) :=
  (s.visitors[n]?).bind fun v => v.state.asked?

/-- What slots, starts and visitors say of each other is true. -/
structure Orderly (s : Depot) : Prop where
  marked : s.pool.Marked
  guarded : s.pool.Guarded s.askedBy?
  suits : ∀ {n : Nat} {v : Visitor} {e : Errand}, s.visitors[n]? = some v → v.state = .busy e →
    e.wish = v.wish
  sound : ∀ {n : Nat} {v : Visitor} {e : Errand}, s.visitors[n]? = some v → v.state = .busy e →
    e.Sound s.pool

theorem visitors_setVisitor (hv : s.visitors[n]? = some v) (q : Pool) (state : Visitor.State)
    (m : Nat) : ({ s with pool := q }.setVisitor n v state).visitors[m]? =
      if m = n then some { v with state := state } else s.visitors[m]? := by
  have hlt : n < s.visitors.length := (List.getElem?_eq_some_iff.mp hv).1
  by_cases hm : m = n
  · subst hm
    simp [setVisitor, hlt]
  · simp [setVisitor, hm, List.getElem?_set_ne (Ne.symm hm)]

/-- How it comes that a visitor is as they are after an event. -/
inductive Fares (s s' : Depot) (e : Event) (n : Nat) (v' : Visitor) : Prop where
  | stays (hv : s.visitors[n]? = some v')
  | comes {wish : Wish} (he : e = .visit wish) (hn : s.visitors.length ≤ n)
      (hv' : v' = ⟨wish, .busy wish.errand⟩)
  | goes {exited : Nat → Bool} {v : Visitor} {d : Errand} {state : Visitor.State}
      (hv : s.visitors[n]? = some v) (hb : v.state = .busy d)
      (hg : d.Goes (s.surroundings exited) s.pool s'.pool state)
      (hv' : v' = { v with state := state })
  | leaves {v : Visitor} {d : Errand} (hv : s.visitors[n]? = some v) (hb : v.state = .busy d)
      (hv' : v' = { v with state := .gone d })

theorem fares_of_happens {v' : Visitor} (h : s.Happens e s') (hv' : s'.visitors[n]? = some v') :
    s.Fares s' e n v' := by
  cases h with
  | elapses | lands | rests | starts | besides => exact .stays hv'
  | visits wish =>
    simp only [List.getElem?_append] at hv'
    split_ifs at hv' with hn
    · exact .stays hv'
    · exact .comes rfl (Nat.le_of_not_lt hn) (List.mem_singleton.mp (List.mem_of_getElem? hv'))
  | @goes m exited verdict u d q state hu hb hg =>
    rw [visitors_setVisitor hu] at hv'
    split_ifs at hv' with hm
    · subst hm
      cases hv'
      exact .goes hu hb hg rfl
    · exact .stays hv'
  | @givesUp m u d hu hb =>
    rw [visitors_setVisitor hu] at hv'
    split_ifs at hv' with hm
    · subst hm
      cases hv'
      exact .leaves hu hb rfl
    · exact .stays hv'

/-- Visitors stay, with the wish that they came with. -/
theorem visitor_of_happens {v : Visitor} (h : s.Happens e s') (hv : s.visitors[n]? = some v) :
    ∃ v', s'.visitors[n]? = some v' ∧ v'.wish = v.wish := by
  have hset : ∀ {m : Nat} {u : Visitor} (q : Pool) (state : Visitor.State),
      s.visitors[m]? = some u →
        ∃ v', ({ s with pool := q }.setVisitor m u state).visitors[n]? = some v' ∧
          v'.wish = v.wish := by
    intro m u q state hu
    rw [visitors_setVisitor hu]
    split_ifs with hm
    · subst hm
      rw [hu] at hv
      cases hv
      exact ⟨_, rfl, rfl⟩
    · exact ⟨v, hv, rfl⟩
  cases h with
  | elapses | lands | rests | starts | besides => exact ⟨v, hv, rfl⟩
  | visits wish =>
    exact ⟨v, (List.getElem?_append_left (List.getElem?_eq_some_iff.mp hv).1).trans hv, rfl⟩
  | goes hu hb hg => exact hset _ _ hu
  | givesUp hu hb => exact hset _ _ hu

theorem askedBy?_setVisitor (hv : s.visitors[n]? = some v) (q : Pool) (state : Visitor.State) :
    ({ s with pool := q }.setVisitor n v state).askedBy? =
      Function.update s.askedBy? n state.asked? := by
  funext m
  rw [askedBy?, visitors_setVisitor hv, Function.update_apply]
  split_ifs <;> rfl

theorem askedBy?_of_busy {e : Errand} (hv : s.visitors[n]? = some v) (hb : v.state = .busy e) :
    s.askedBy? n = e.asked? := by
  rw [askedBy?, hv, Option.bind_some, hb, Visitor.State.asked?]

theorem thins_letGo (p : Pool) (e : Errand) : Thins p (letGo p e) := by
  unfold letGo
  split
  · exact Pool.thins_held p false
  · exact ⟨rfl, id, id, id⟩

theorem marked_of_happens (hm : s.pool.Marked) (h : s.Happens e s') : s'.pool.Marked := by
  cases h with
  | elapses | lands | besides =>
    refine hm.thins (Spares.toThins ?_)
    exact .of_eq rfl rfl rfl
  | rests | visits => exact hm
  | starts hj hg => exact hm.start hj hg
  | goes hv hb hg => exact hm.turn hg.turn
  | givesUp hv hb => exact hm.thins (thins_letGo ..)

/-- Whoever comes has not found anything yet. -/
theorem askedBy?_visit (s : Depot) (wish : Wish) :
    askedBy? { s with visitors := s.visitors ++ [⟨wish, .busy wish.errand⟩] } = s.askedBy? := by
  have hask : Visitor.State.asked? (.busy wish.errand) = none := by cases wish <;> rfl
  funext m
  rw [askedBy?, askedBy?, List.getElem?_append]
  split_ifs with hm
  · rfl
  · have hnone : s.visitors[m]? = none := List.getElem?_eq_none (by omega)
    rw [hnone]
    cases hx : [(⟨wish, .busy wish.errand⟩ : Visitor)][m - s.visitors.length]? with
    | none => rfl
    | some v =>
      obtain rfl := List.mem_singleton.mp (List.mem_of_getElem? hx)
      exact hask

theorem Orderly.guarded_of_givesUp (h : s.Orderly) {d : Errand} (hv : s.visitors[n]? = some v)
    (hb : v.state = .busy d) :
    (letGo s.pool d).Guarded (Function.update s.askedBy? n none) := by
  have hasked := askedBy?_of_busy hv hb
  unfold letGo
  split
  · exact .free rfl (h.guarded.only_update hasked)
  · rename_i hne
    have hnone : d.asked? = none := by
      unfold Errand.asked?
      split
      · exact absurd rfl (hne _ _ _)
      · rfl
    rw [update_eq_self (hasked.trans hnone)]
    exact h.guarded

theorem guarded_of_happens (h : s.Orderly) (he : s.Happens e s') :
    s'.pool.Guarded s'.askedBy? := by
  cases he with
  | elapses | lands | besides => exact h.guarded.congr rfl fun _ _ _ => id
  | rests => exact h.guarded
  | starts hj hg => exact h.guarded.start hg
  | visits wish =>
    rw [askedBy?_visit]
    exact h.guarded
  | goes hv hb hg =>
    rw [askedBy?_setVisitor hv]
    exact h.guarded.turn h.marked.keyed (askedBy?_of_busy hv hb) hg.turn
  | givesUp hv hb =>
    rw [askedBy?_setVisitor hv]
    exact h.guarded_of_givesUp hv hb

theorem Orderly.happens (h : s.Orderly) (he : s.Happens e s') : s'.Orderly := by
  refine ⟨marked_of_happens h.marked he, guarded_of_happens h he, fun {m v d} hv hd => ?_,
    fun {m v d} hv hd => ?_⟩
  · cases fares_of_happens he hv with
    | stays hu => exact h.suits hu hd
    | @comes wish hvisit hn heq =>
      subst heq
      cases hd
      cases wish <;> rfl
    | goes hu hb hg heq =>
      have hwish := h.suits hu hb
      subst heq
      cases hd
      exact (hg.sound h.marked (h.sound hu hb)).2.trans hwish
    | leaves hu hb heq =>
      subst heq
      cases hd
  · cases fares_of_happens he hv with
    | stays hu => exact (h.sound hu hd).grows (grows_of_happens he)
    | @comes wish hvisit hn heq =>
      subst heq
      cases hd
      cases wish with
      | ready b => exact trivial
      | work b => exact ⟨rfl, trivial⟩
      | stop choice => exact trivial
    | goes hu hb hg heq =>
      subst heq
      cases hd
      exact (hg.sound h.marked (h.sound hu hb)).1
    | leaves hu hb heq =>
      subst heq
      cases hd

/-- **Order.** What slots, starts and visitors say of each other is true in every run. -/
theorem orderly_of_reachable (h : Reachable P s) : s.Orderly := by
  refine h.induct (fun budget roots directory isProcess clientProcess => ?_)
    fun s e t _ ih _ ha => ih.happens (happens_of_act ha)
  have hasked : ∀ n, (new budget roots directory isProcess clientProcess).askedBy? n = none :=
    fun n => rfl
  refine ⟨⟨List.nodup_nil, fun hm => (by cases hm), fun ⟨_, hm⟩ => (by cases hm),
    fun hj => (by cases hj)⟩, .free rfl hasked, fun hv => (by cases hv), fun hv => (by cases hv)⟩

/-! ## Runs in which no start loses its slot -/

/-- Whether a visitor's step takes a slot away from a start. -/
def Evicts (s : Depot) (e : Event) : Prop :=
  (∃ n exited verdict, e = .go n exited verdict) ∧
    ∃ s' c j, s.act e = some s' ∧ s.pool.Marks c j ∧ ¬ s'.pool.Marks c j

/-- Whether somebody comes to stop backends that may be in use. -/
def Event.isShutdown : Event → Bool
  | .visit wish => wish.isShutdown
  | _ => false

/-- **Markers.** As long as nobody takes a slot away from a start, every start under way has the slot
of its command. -/
theorem owned_of_reachable (h : Reachable (fun s e => ¬ s.Evicts e) s) : s.pool.Owned := by
  refine Reachable.induct (I := fun s => s.pool.Owned) ?_ (fun s e t _ ih he ha => ?_) h
  · rintro budget roots directory isProcess clientProcess c j ⟨a, ha, -⟩
    cases ha
  cases happens_of_act ha with
  | elapses | lands | besides => exact ih.congr rfl id
  | rests | visits => exact ih
  | starts hj hg => exact ih.start hj hg
  | goes hv hb hg =>
    refine ih.turn hg.turn fun c j hm => ?_
    by_contra hnot
    exact he ⟨⟨_, _, _, rfl⟩, _, c, j, ha, hm, hnot⟩
  | givesUp hv hb =>
    refine ih.congr ?_ ?_
    · change (letGo s.pool _).starts = _
      unfold letGo
      split <;> rfl
    · intro c j hm
      change (letGo s.pool _).Marks c j
      unfold letGo
      split <;> exact hm

/-- A run without shutdowns, as far as a depot can tell. -/
structure Undisturbed (s : Depot) : Prop where
  reachable : Reachable (fun s e => ¬ s.Evicts e) s
  wishes : ∀ {n : Nat} {v : Visitor}, s.visitors[n]? = some v → v.wish.isShutdown = false

/-- Where nobody came to shut backends down, no step takes a slot away from a start. -/
theorem not_evicts (ho : s.Orderly)
    (hw : ∀ {n : Nat} {v : Visitor}, s.visitors[n]? = some v → v.wish.isShutdown = false) :
    ¬ s.Evicts e := by
  rintro ⟨⟨n, exited, verdict, rfl⟩, s', c, j, ha, hm, hnot⟩
  cases happens_of_act ha with
  | goes hv hb hg =>
    refine hnot (hg.turn.marks ho.guarded (askedBy?_of_busy hv hb) ?_ hm)
    rw [ho.suits hv hb]
    exact hw hv

/-- If nobody comes to shut backends down, no start loses its slot. -/
theorem undisturbed_of_reachable (h : Reachable (fun _ e => e.isShutdown = false) s) :
    s.Undisturbed := by
  refine h.induct (fun budget roots directory isProcess clientProcess => ?_)
    fun s e t hr ⟨ih, hwish⟩ he ha => ⟨?_, fun {n v} hv => ?_⟩
  · exact ⟨⟨_, _, _, _, _, .refl⟩, fun hv => by cases hv⟩
  · exact ih.run (Run.refl.step (not_evicts (orderly_of_reachable hr) hwish) ha)
  · cases fares_of_happens (happens_of_act ha) hv with
    | stays hv => exact hwish hv
    | @comes wish hvisit hn hv' =>
      subst hvisit hv'
      exact he
    | goes hu hb hg hv' | leaves hu hb hv' =>
      have hsame := hwish hu
      rw [hv']
      exact hsame

end Depot

end DiagnosticBroker
