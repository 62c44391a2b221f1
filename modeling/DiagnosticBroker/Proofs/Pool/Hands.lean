import DiagnosticBroker.Proofs.Pool.Instances

/-!
# Instances that are being stopped

Whoever empties a slot takes its instance in hand, and lets go of it when it is stopped. A shutdown in
somebody's hands has closed its instance for good once it has closed its input: no start ever touches
an instance again that was in a slot.

Results:
* `handles_of_goes`: what a visitor's step does to slots and to what is in hand.
* `lasts_of_happens`: only the start that made an instance can start it.
* `closing_of_reachable`: whoever stops an instance, stops it for good.
-/

namespace DiagnosticBroker

open Pool (Grows Marked)

variable {w : Surroundings} {p q : Pool} {n : Nat}

/-! ## What is in hand -/

/-- The instances that somebody is stopping, each with how far the shutdown is. -/
abbrev Hands := List (Nat × Instance.Shutdown)

def Retire.hands (i : Nat) : Retire → Hands
  | .remove => []
  | .stopping s => [(i, s)]

def Ensure.hands (e : Ensure) : Hands :=
  match e.phase with
  | .retire i r => r.hands i
  | _ => []

def Execute.hands (x : Execute Nat) : Hands :=
  match x.phase with
  | .ensuring e => e.hands
  | .retiring i r => r.hands i
  | _ => []

def Stop.hands (s : Stop) : Hands :=
  match s.phase with
  | .stopping rest => rest
  | _ => []

/-- The instances that an errand is stopping. -/
def Errand.hands : Errand → Hands
  | .ready e => e.hands
  | .work x => x.hands
  | .stop s => s.hands

/-- The instances that a visitor is stopping, or was stopping when the visitor gave up. -/
def Visitor.State.hands : Visitor.State → Hands
  | .busy e => e.hands
  | .gone e => e.hands
  | .done _ => []

/-- What a visitor's step does to the slots and to what is in hand, `before` and `after` the step. -/
inductive Handles (w : Surroundings) (p q : Pool) (before after : Hands) : Prop where
  | rests (hi : q.instances = p.instances) (hs : ∀ {c i}, p.Holds c i → q.Holds c i)
      (hh : after = before)
  | takes (hi : q.instances = p.instances) (hb : before = [])
      (hs : ∀ {c i}, p.Holds c i → q.Holds c i ∨ (i, .begin) ∈ after)
      (hh : ∀ {i s}, (i, s) ∈ after → s = .begin ∧ ∃ c, p.Brings c i)
  | advances {l r : Hands} {i : Nat} {s s' : Instance.Shutdown} {x y : Instance}
      (hx : p.instance? i = some x) (hs : (s.step w.exited w.now x).Becomes y (.running s'))
      (hb : before = l ++ (i, s) :: r) (hh : after = l ++ (i, s') :: r)
      (hq : q = p.setInstance i y)
  | ends {l r : Hands} {i : Nat} {s : Instance.Shutdown} {x y : Instance}
      (hx : p.instance? i = some x) (hs : (s.step w.exited w.now x).Becomes y (.ended ()))
      (hb : before = l ++ (i, s) :: r) (hh : after = l ++ r) (hq : q = p.setInstance i y)

/-- What is in hand after a step. -/
def Task.hands {ρ α : Type} (hands : ρ → Hands) : Task ρ α → Hands
  | .running r => hands r
  | _ => []

theorem Retire.Goes.handles {c : Command} {i : Nat} {r : Retire} {t : Task Retire Unit}
    (h : r.Goes w p c i q t) (hi : p.Brings c i) :
    Handles w p q (r.hands i) (t.hands (Retire.hands i)) := by
  cases h with
  | removes hh =>
    rcases Pool.clearInstance_cases p c i with ⟨hc, h⟩ | ⟨-, h⟩ <;> rw [h]
    · refine .takes rfl rfl (fun {d k} hk => ?_) fun hk => ?_
      · rw [Pool.holds_clearSlot]
        by_cases hd : d = c
        · subst hd
          rw [hk.eq hc]
          exact .inr (List.mem_singleton_self _)
        · exact .inl ⟨hd, hk⟩
      · cases List.mem_singleton.mp hk
        exact ⟨rfl, c, hi⟩
    · refine .takes rfl rfl .inl fun hk => ?_
      cases List.mem_singleton.mp hk
      exact ⟨rfl, c, hi⟩
  | stops hx hs => exact .advances (l := []) hx hs rfl rfl rfl
  | stopped hx hs => exact .ends (l := []) (r := []) hx hs rfl rfl rfl

theorem Ensure.Goes.handles {e : Ensure} {t : Task Ensure StartResult} (h : e.Goes w p q t)
    (he : e.Sound p) : Handles w p q e.hands (t.hands Ensure.hands) := by
  obtain ⟨b, phase⟩ := e
  cases h with
  | finds hp | enlists hp | misses hp | passes hp | parks hp | joins hp =>
    cases hp
    exact .rests rfl id rfl
  | rejects hp =>
    rcases hp with ⟨hp, -⟩ | hp <;> cases hp <;> exact .rests rfl id rfl
  | returns hp =>
    rcases hp with hp | ⟨j, seen, hp | hp⟩ <;> cases hp <;> exact .rests rfl id rfl
  | touches hp =>
    cases hp
    exact .rests rfl Pool.holds_touchSlot.mpr rfl
  | retires hp hr | retired hp hr =>
    cases hp
    exact hr.handles he
  | claims hp hh hs =>
    cases hp
    exact .rests rfl (fun hk => hk.claim hs) rfl

theorem Execute.Goes.handles {x : Execute Nat} {t : Task (Execute Nat) (Except Fault Nat)}
    (h : x.Goes w p q t) (hx : x.Sound p) : Handles w p q x.hands (t.hands Execute.hands) := by
  obtain ⟨b, restarts, phase⟩ := x
  cases h with
  | ensures hp h | begins hp h | fails hp h =>
    cases hp
    exact h.handles hx.2
  | succeeds hp | gives hp | rejects hp | restarts hp =>
    cases hp
    exact .rests rfl id rfl
  | retires hp h | retired hp h =>
    cases hp
    exact h.handles hx

theorem StopAll.Goes.handles {s : StopAll} {t : Task StopAll Unit} (h : s.Goes w p q t) :
    Handles w p q s (t.hands id) := by
  cases h with
  | stops hx hs => exact .advances hx hs rfl rfl rfl
  | stopped hx hs => exact .ends hx hs rfl rfl rfl
  | ends => exact .rests rfl id rfl

theorem mem_ofIndices {is : List Nat} {i : Nat} {s : Instance.Shutdown} :
    (i, s) ∈ StopAll.ofIndices is ↔ i ∈ is ∧ s = .begin := by
  simp only [StopAll.ofIndices, List.mem_map, Prod.mk.injEq]
  exact ⟨fun ⟨_, hk, hki, hs⟩ => ⟨hki ▸ hk, hs.symm⟩, fun ⟨hi, hs⟩ => ⟨i, hi, rfl, hs.symm⟩⟩

theorem Stop.Goes.handles {s : Stop} {t : Task Stop Nat} (h : s.Goes w p q t) (hm : p.Marked)
    (hasked : ∀ x, s.phase = .asking x → ∀ e ∈ x.entries, p.Holds e.1 e.2) :
    Handles w p q s.hands (t.hands Stop.hands) := by
  obtain ⟨choice, count, phase⟩ := s
  cases h with
  | @takes c hp hc hh count =>
    cases hp
    refine .takes rfl rfl (fun {d k} hk => ?_) fun {k s} hk => ?_
    · rw [Pool.holds_clearSlot]
      by_cases hd : d = c
      · subst hd
        obtain ⟨used, hk⟩ := hk
        refine .inr (mem_ofIndices.mpr ⟨?_, rfl⟩)
        rw [hk]
        exact List.mem_singleton_self k
      · exact .inl ⟨hd, hk⟩
    · obtain ⟨hk, hs⟩ := mem_ofIndices.mp hk
      obtain ⟨slot, hslot, hi⟩ := Option.bind_eq_some_iff.mp (Option.mem_toList.mp hk)
      cases slot with
      | initializing j => cases hi
      | ready i used =>
        cases hi
        exact ⟨hs, c, hm.holds ⟨used, hslot⟩⟩
  | takesAll hp hc hh count =>
    cases hp
    refine .takes rfl rfl (fun {d k} hk => ?_) fun {k s} hk => ?_
    · obtain ⟨used, hk⟩ := hk
      refine .inr (mem_ofIndices.mpr ⟨?_, rfl⟩)
      exact List.mem_filterMap.mpr ⟨(d, .ready k used), (Pool.mem_slots_iff hm.keyed).mpr hk, rfl⟩
    · obtain ⟨hk, hs⟩ := mem_ofIndices.mp hk
      obtain ⟨⟨d, slot⟩, hslot, hi⟩ := List.mem_filterMap.mp hk
      cases slot with
      | initializing j => cases hi
      | ready i used =>
        cases hi
        exact ⟨hs, d, hm.holds ⟨used, (Pool.mem_slots_iff hm.keyed).mp hslot⟩⟩
  | holds hp | takesNone hp | asks hp =>
    cases hp
    exact .rests rfl id rfl
  | @takesFound x found hp hf =>
    cases hp
    have hin : ∀ e ∈ found, p.Holds e.1 e.2 := fun e he =>
      hasked x rfl e (Stop.Search.mem_entries.mpr ((hf.mem he).imp_right .inr))
    refine .takes ?_ rfl (fun {d k} hk => ?_) fun {k s} hk => ?_
    · obtain ⟨slots, h⟩ := Pool.clearAll_eq found { p with held := false }
      rw [h]
    · rw [Pool.holds_clearAll]
      by_cases hd : d ∈ found.map (·.1)
      · obtain ⟨e, he, rfl⟩ := List.mem_map.mp hd
        have heq : k = e.2 := Pool.Holds.eq hk (hin e he)
        exact .inr (mem_ofIndices.mpr ⟨List.mem_map.mpr ⟨e, he, heq.symm⟩, rfl⟩)
      · exact .inl ⟨hd, hk⟩
    · obtain ⟨hk, hs⟩ := mem_ofIndices.mp hk
      obtain ⟨e, he, rfl⟩ := List.mem_map.mp hk
      exact ⟨hs, e.1, hm.holds (hin e he)⟩
  | stops hp h | ends hp h =>
    cases hp
    exact h.handles

/-- **Hands.** What a visitor's step does to the slots and to what is in hand. -/
theorem handles_of_goes {e : Errand} {state : Visitor.State} (h : e.Goes w p q state)
    (hm : p.Marked) (he : e.Sound p)
    (hasked : ∀ es, e.asked? = some es → ∀ x ∈ es, p.Holds x.1 x.2) :
    Handles w p q e.hands state.hands := by
  cases h with
  | ready h | readied h => exact h.handles he
  | work h | worked h => exact h.handles he
  | stop h | stopped h =>
    exact h.handles hm fun x hp => hasked _ (asked?_of_phase hp)

/-! ## Instances endure -/

/-- An instance is not being started. -/
def Pool.Calm (p : Pool) (i : Nat) : Prop :=
  ∀ {j a k s}, p.start? j = some a → a.phase ≠ .starting k i s

/-- An instance of `p` is still there in `q`, and stopped if it was. -/
def Pool.Lasts (p q : Pool) (i : Nat) : Prop :=
  ∀ {x}, p.instance? i = some x → ∃ y, q.instance? i = some y ∧ x.Endures y

theorem Pool.lasts_of_eq {i : Nat} (h : q.instances = p.instances) : p.Lasts q i :=
  fun hx => ⟨_, by rwa [instance?, h], .refl _⟩

theorem Pool.lasts_setInstance {i k : Nat} {x y : Instance} (hx : p.instance? k = some x)
    (hy : i = k → x.Endures y) : p.Lasts (p.setInstance k y) i := by
  intro z hz
  rw [instance?_setInstance hx]
  split_ifs with hi
  · subst hi
    rw [hx] at hz
    cases hz
    exact ⟨y, rfl, hy rfl⟩
  · exact ⟨z, hz, .refl z⟩

/-- What one start has and is not starting, nobody is starting. -/
theorem Pool.Made.calm {i j : Nat} {a : StartJob} (hm : p.Made) (ha : p.start? j = some a)
    (hi : a.index? = some i) (hn : ∀ {k s}, a.phase ≠ .starting k i s) : p.Calm i := by
  intro m b k s hb hp
  have hjm : j = m := hm.apart ha hb hi (by rw [StartJob.index?, hp])
  subst hjm
  rw [ha] at hb
  cases hb
  exact hn hp

theorem Pool.Brings.calm {c : Command} {i : Nat} (h : p.Brings c i) (hm : p.Made) : p.Calm i := by
  obtain ⟨j, a, ha, hover, -⟩ := h
  refine hm.calm ha (by rw [StartJob.index?, hover]) fun hp => ?_
  rw [hp] at hover
  cases hover

theorem Handles.lasts {before after : Hands} (h : Handles w p q before after) (i : Nat) :
    p.Lasts q i := by
  cases h with
  | rests hi | takes hi => exact Pool.lasts_of_eq hi
  | advances hx hs hb hh hq | ends hx hs hb hh hq =>
    subst hq
    exact Pool.lasts_setInstance hx fun _ => (Instance.endures_shutdown ..).becomes hs

theorem StartJob.instances_settle (p : Pool) (j : StartJob) (r : StartResult) :
    (settle p j r).1.instances = p.instances := by
  cases r <;> rfl

theorem StartJob.instances_clear (p : Pool) (n : Nat) (j : StartJob) (cause : String) :
    (clear p n j cause).1.instances = p.instances := by
  simp only [clear]
  split_ifs <;> rfl

/-- A start leaves alone what it does not start. -/
theorem StartJob.Goes.lasts {j j' : StartJob} {i : Nat} (h : j.Goes w p n q j')
    (hi : ∀ {k s}, j.phase ≠ .starting k i s) : p.Lasts q i := by
  cases h with
  | connects hp =>
    intro x hx
    exact ⟨x, (List.getElem?_append_left (List.getElem?_eq_some_iff.mp hx).1).trans hx, .refl x⟩
  | starts hp hx hs | succeeds hp hx hs | fails hp hx hs =>
    refine Pool.lasts_setInstance hx fun hk => ?_
    subst hk
    exact absurd hp hi
  | stops hp hx hs | stopped hp hx hs =>
    exact Pool.lasts_setInstance hx fun _ => (Instance.endures_shutdown ..).becomes hs
  | settles hp hh => exact Pool.lasts_of_eq (instances_settle ..)
  | clears hp hh => exact Pool.lasts_of_eq (instances_clear ..)
  | begins | refused | crashes | resumes | marks => exact Pool.lasts_of_eq rfl

namespace Depot

variable {P : Depot → Event → Prop} {s s' : Depot} {e : Event} {i : Nat}

/-- What an errand does to the slots and to what is in hand, in an orderly depot. -/
theorem Orderly.handles (ho : s.Orderly) {v : Visitor} {d : Errand} {state : Visitor.State}
    (hv : s.visitors[n]? = some v) (hb : v.state = .busy d) (hg : d.Goes w s.pool q state) :
    Handles w s.pool q d.hands state.hands := by
  refine handles_of_goes hg ho.marked (ho.sound hv hb) fun es hes => ?_
  exact (ho.guarded.finds ((askedBy?_of_busy hv hb).trans hes)).2

theorem instances_letGo (p : Pool) (d : Errand) : (letGo p d).instances = p.instances := by
  unfold letGo
  split <;> rfl

/-- **Instances endure.** An instance that is not being started stays, and stays stopped if it is. -/
theorem lasts_of_happens (ho : s.Orderly) (h : s.Happens e s') (hi : s.pool.Calm i) :
    s.pool.Lasts s'.pool i := by
  cases h with
  | elapses | lands | rests | visits => exact Pool.lasts_of_eq rfl
  | starts hj hg => exact hg.lasts fun {k s} => hi hj
  | goes hv hb hg => exact (ho.handles hv hb hg).lasts i
  | givesUp hv hb => exact Pool.lasts_of_eq (instances_letGo ..)
  | besides hx hy => exact Pool.lasts_setInstance hx fun _ => hy

/-- A shutdown stops an instance for good that a start has brought. -/
structure Stops (s : Depot) (i : Nat) (h : Instance.Shutdown) : Prop where
  brings : ∃ c, s.pool.Brings c i
  closes : ∀ x, s.pool.instance? i = some x → h.Closes x

/-- Whoever stops an instance, stops it for good. -/
structure Closing (s : Depot) : Prop where
  hands : ∀ {n : Nat} {v : Visitor} {i h}, s.visitors[n]? = some v → (i, h) ∈ v.state.hands →
    s.Stops i h
  starts : ∀ {j a k i h f}, s.pool.start? j = some a → a.phase = .stopping k i h f →
    ∀ x, s.pool.instance? i = some x → h.Closes x

/-- A shutdown that has closed an instance has closed what has become of it. -/
theorem closes_of_lasts {h : Instance.Shutdown} (hl : p.Lasts q i)
    (hp : ∃ x, p.instance? i = some x) (hc : ∀ x, p.instance? i = some x → h.Closes x) :
    ∀ y, q.instance? i = some y → h.Closes y := by
  intro y hy
  obtain ⟨x, hx⟩ := hp
  obtain ⟨z, hz, hend⟩ := hl hx
  rw [hy] at hz
  cases hz
  exact (hc x hx).endures hend

theorem exists_of_brings {c : Command} (h : p.Brings c i) (hm : p.Made) :
    ∃ x, p.instance? i = some x := by
  obtain ⟨j, a, ha, hover, -⟩ := h
  obtain ⟨x, hx, -⟩ := hm.made ha (by rw [StartJob.index?, hover])
  exact ⟨x, hx⟩

theorem Stops.happens {h : Instance.Shutdown} (hs : s.Stops i h) (ho : s.Orderly)
    (hm : s.pool.Made) (he : s.Happens e s') : s'.Stops i h := by
  obtain ⟨c, hc⟩ := hs.brings
  exact ⟨⟨c, hc.grows (grows_of_happens he)⟩,
    closes_of_lasts (lasts_of_happens ho he (hc.calm hm)) (exists_of_brings hc hm) hs.closes⟩

/-- What a visitor has in hand after a step. -/
theorem Closing.handles (hc : s.Closing) (ho : s.Orderly) (hm : s.pool.Made) {v : Visitor}
    {d : Errand} {state : Visitor.State} {h : Instance.Shutdown} (hv : s.visitors[n]? = some v)
    (hb : v.state = .busy d) (hg : d.Goes w s.pool q state) (he : s.Happens e s')
    (hq : s'.pool = q) (hin : (i, h) ∈ state.hands) : s'.Stops i h := by
  have hold : ∀ {k h}, (k, h) ∈ d.hands → s.Stops k h := fun hk => hc.hands hv (by rw [hb]; exact hk)
  have hgrows := grows_of_happens he
  cases ho.handles hv hb hg with
  | rests hi hs hh => exact (hold (hh ▸ hin)).happens ho hm he
  | takes hi hb' hs hh =>
    obtain ⟨rfl, c, hbrings⟩ := hh hin
    exact ⟨⟨c, hbrings.grows hgrows⟩, fun x _ hclosed => by cases hclosed⟩
  | ends hx hs hb' hh hq' =>
    refine (hold ?_).happens ho hm he
    rw [hh] at hin
    rw [hb']
    simp only [List.mem_append, List.mem_cons] at hin ⊢
    tauto
  | @advances l r k t t' x y hx hs hb' hh hq' =>
    rw [hh] at hin
    rcases List.mem_append.mp hin with hin | hin
    · exact (hold (hb' ▸ List.mem_append_left _ hin)).happens ho hm he
    rcases List.mem_cons.mp hin with hin | hin
    · cases hin
      have hstops := hold (hb' ▸ List.mem_append_right l List.mem_cons_self)
      obtain ⟨c, hbrings⟩ := hstops.brings
      refine ⟨⟨c, hbrings.grows hgrows⟩, fun z hz => ?_⟩
      rw [hq, hq', Pool.instance?_setInstance hx, if_pos rfl] at hz
      cases hz
      exact ((Instance.yields_shutdown ..).running hs).2 (hstops.closes x hx)
    · exact (hold (hb' ▸ List.mem_append_right l (List.mem_cons_of_mem _ hin))).happens ho hm he

theorem phase_afterFailure {now : Time} {j : StartJob} {k m : Nat} {f f' : Fault}
    {h : Instance.Shutdown} : (StartJob.afterFailure now j k f).phase ≠ .stopping m i h f' := by
  unfold StartJob.afterFailure
  cases j.policy.next k f with
  | again pause k => exact fun hp => by cases hp
  | giveUp => cases f.isRecoverable <;> exact fun hp => by cases hp

/-- A start that stops what it has made, stops it for good. -/
theorem closes_of_goes {j j' : StartJob} {k : Nat} {h : Instance.Shutdown} {f : Fault}
    (hg : j.Goes w p n q j') (hc : ∀ {k h f}, j.phase = .stopping k i h f →
      ∀ x, p.instance? i = some x → h.Closes x)
    (hp : j'.phase = .stopping k i h f) : ∀ x, q.instance? i = some x → h.Closes x := by
  cases hg with
  | fails hp' hx hs =>
    cases hp
    exact fun x _ hclosed => by cases hclosed
  | stops hp' hx hs =>
    cases hp
    intro z hz
    rw [Pool.instance?_setInstance hx, if_pos rfl] at hz
    cases hz
    exact ((Instance.yields_shutdown ..).running hs).2 (hc hp' _ hx)
  | refused | stopped => exact absurd hp phase_afterFailure
  | begins | connects | crashes | starts | succeeds | resumes | marks | settles | clears => cases hp

theorem Closing.hands_of_happens (hc : s.Closing) (ho : s.Orderly) (hm : s.pool.Made)
    (he : s.Happens e s') {v' : Visitor} {h : Instance.Shutdown} (hv' : s'.visitors[n]? = some v')
    (hin : (i, h) ∈ v'.state.hands) : s'.Stops i h := by
  cases fares_of_happens he hv' with
  | stays hv => exact (hc.hands hv hin).happens ho hm he
  | @comes wish hvisit hn heq =>
    subst heq
    cases wish <;> cases hin
  | goes hu hb hg heq =>
    subst heq
    exact hc.handles ho hm hu hb hg he rfl hin
  | leaves hu hb heq =>
    subst heq
    refine (hc.hands hu ?_).happens ho hm he
    rw [hb]
    exact hin

theorem Closing.starts_of_happens (hc : s.Closing) (ho : s.Orderly) (hm : s.pool.Made)
    (he : s.Happens e s') {j k : Nat} {a : StartJob} {h : Instance.Shutdown} {f : Fault}
    (ha : s'.pool.start? j = some a) (hp : a.phase = .stopping k i h f) :
    ∀ x, s'.pool.instance? i = some x → h.Closes x := by
  -- A start that is not the one that goes on.
  have hold : s.pool.start? j = some a → ∀ x, s'.pool.instance? i = some x → h.Closes x := by
    intro ha
    have hindex : a.index? = some i := by rw [StartJob.index?, hp]
    obtain ⟨x, hx, -⟩ := hm.made ha hindex
    have hcalm : s.pool.Calm i := hm.calm ha hindex fun hp' => by
      rw [hp] at hp'
      cases hp'
    have hlasts : s.pool.Lasts s'.pool i := lasts_of_happens ho he hcalm
    exact closes_of_lasts hlasts ⟨x, hx⟩ (hc.starts ha hp)
  cases he with
  | elapses | lands | rests | visits | besides => exact hold ha
  | givesUp hv hb => exact hold ((Pool.start?_congr (starts_letGo ..) j).symm.trans ha)
  | goes hv hb hg =>
    rcases hg.turn.starts with hs | ⟨b, rfl⟩
    · exact hold ((Pool.start?_congr hs j).symm.trans ha)
    · rcases (Pool.start?_claim s.pool b).mp ha with ha | ⟨-, rfl⟩
      · exact hold ha
      · cases hp
  | @starts m exited d d' q hd hg =>
    have ha' := ha
    rw [hg.start?_setStart hd] at ha'
    split_ifs at ha' with hjm
    · cases ha'
      have hcloses := closes_of_goes hg (i := i) (fun hp => hc.starts hd hp) hp
      exact hcloses
    · exact hold ha'

theorem Closing.happens (hc : s.Closing) (ho : s.Orderly) (hm : s.pool.Made)
    (he : s.Happens e s') : s'.Closing :=
  ⟨hc.hands_of_happens ho hm he, hc.starts_of_happens ho hm he⟩

/-- **Shutdowns.** Whoever stops an instance, stops it for good. -/
theorem closing_of_reachable (h : Reachable P s) : s.Closing := by
  refine Reachable.induct (I := fun s => s.Closing) ?_ (fun s e t hr ih _ ha => ?_) h
  · exact fun budget roots directory isProcess clientProcess =>
      ⟨fun hv => (by cases hv), fun ha => (by cases ha)⟩
  · exact ih.happens (orderly_of_reachable hr) (made_of_reachable hr) (happens_of_act ha)

end Depot

end DiagnosticBroker
