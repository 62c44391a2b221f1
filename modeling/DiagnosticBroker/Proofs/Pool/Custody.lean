import DiagnosticBroker.Proofs.Pool.Hands

/-!
# Who has an instance

An instance that is not terminated belongs to the start that made it. Once that start is over, the
instance is in the slot of its command or in the hands of a visitor who stops it, unless a start has
put another instance into that slot. A start does that only after somebody took its own marker away.

Results:
* `covered_of_reachable`: who is not terminated has a start.
* `released_of_happens`: what is in hand stays in hand until it is terminated.
* `kept_of_reachable`: where an instance is whose start is over.
* `settles_own_slot`: starts that keep their markers change no slot of others.
* `orphaned`: a start that lost its marker can leave an instance that nobody has.
-/

namespace DiagnosticBroker

open Pool (Grows)

variable {w : Surroundings} {p q : Pool} {c : Command} {i j k n : Nat}

/-! ## Instances have starts -/

/-- An instance is there and not terminated. -/
def Pool.Lives (p : Pool) (i : Nat) : Prop :=
  ∃ x, p.instance? i = some x ∧ x.lifecycle ≠ .terminated

/-- Whatever is not terminated belongs to a start. -/
def Pool.Covered (p : Pool) : Prop :=
  ∀ {i}, p.Lives i → ∃ j a, p.start? j = some a ∧ a.index? = some i

theorem Pool.lives_congr (h : q.instances = p.instances) : q.Lives i ↔ p.Lives i := by
  rw [Lives, Lives, instance?, instance?, h]

theorem Pool.lives_setInstance {x y : Instance} (hx : p.instance? k = some x)
    (h : (p.setInstance k y).Lives i) : i = k ∧ y.lifecycle ≠ .terminated ∨ p.Lives i := by
  obtain ⟨z, hz, hl⟩ := h
  rw [instance?_setInstance hx] at hz
  split_ifs at hz with hi
  · cases hz
    exact .inl ⟨hi, hl⟩
  · exact .inr ⟨z, hz, hl⟩

/-- Nothing comes back to life by what an instance endures. -/
theorem Pool.lives_of_endures {x y : Instance} (hx : p.instance? k = some x) (hy : x.Endures y)
    (h : (p.setInstance k y).Lives i) : p.Lives i := by
  rcases lives_setInstance hx h with ⟨rfl, hl⟩ | h
  · exact ⟨x, hx, fun ht => hl (hy.terminated ht)⟩
  · exact h

theorem Pool.Lasts.lives (h : p.Lasts q i) (hp : ∃ x, p.instance? i = some x) (hq : q.Lives i) :
    p.Lives i := by
  obtain ⟨x, hx⟩ := hp
  obtain ⟨y, hy, hend⟩ := h hx
  obtain ⟨z, hz, hl⟩ := hq
  rw [hy] at hz
  cases hz
  exact ⟨x, hx, fun ht => hl (hend.terminated ht)⟩

theorem Handles.lives {before after : Hands} (h : Handles w p q before after) (hi : q.Lives i) :
    p.Lives i := by
  cases h with
  | rests heq | takes heq => exact (Pool.lives_congr heq).mp hi
  | advances hx hs hb hh hq | ends hx hs hb hh hq =>
    subst hq
    exact Pool.lives_of_endures hx ((Instance.endures_shutdown ..).becomes hs) hi

/-- A visitor lets go only of what is terminated. -/
theorem Handles.stays {before after : Hands} {h : Instance.Shutdown}
    (hs : Handles w p q before after) (hin : (i, h) ∈ before)
    (hc : ∀ x, p.instance? i = some x → h.Closes x) (hl : q.Lives i) :
    ∃ h', (i, h') ∈ after := by
  cases hs with
  | rests heq hkeeps hh => exact ⟨h, hh ▸ hin⟩
  | takes heq hb hkeeps hh =>
    rw [hb] at hin
    cases hin
  | @advances l r k z z' x y hx hs hb hh hq =>
    rw [hb, List.mem_append, List.mem_cons] at hin
    rcases hin with hin | heq | hin
    · exact ⟨h, hh ▸ List.mem_append_left _ hin⟩
    · cases heq
      exact ⟨z', hh ▸ List.mem_append_right l List.mem_cons_self⟩
    · exact ⟨h, hh ▸ List.mem_append_right l (List.mem_cons_of_mem _ hin)⟩
  | @ends l r k z x y hx hs hb hh hq =>
    rw [hb, List.mem_append, List.mem_cons] at hin
    rcases hin with hin | heq | hin
    · exact ⟨h, hh ▸ List.mem_append_left _ hin⟩
    · cases heq
      have hclosed := ((Instance.yields_shutdown ..).ended hs).2 (hc x hx)
      obtain ⟨y', hy, hlive⟩ := hl
      rw [hq, Pool.instance?_setInstance hx, if_pos rfl] at hy
      cases hy
      exact absurd hclosed hlive
    · exact ⟨h, hh ▸ List.mem_append_right l hin⟩

/-- A step of a start brings to life only what the start has. -/
theorem StartJob.Goes.lives {a a' : StartJob} (h : a.Goes w p n q a') (hi : q.Lives i) :
    p.Lives i ∨ a.index? = some i ∨ a'.index? = some i := by
  cases h with
  | connects hp =>
    obtain ⟨x, hx, hl⟩ := hi
    rcases Nat.lt_trichotomy i p.instances.length with hlt | rfl | hlt
    · exact .inl ⟨x, (List.getElem?_append_left hlt).symm.trans hx, hl⟩
    · exact .inr (.inr rfl)
    · have hnone : (p.addInstance a.backend).1.instance? i = none :=
        List.getElem?_eq_none (by simpa [Pool.addInstance, Nat.succ_le_iff] using hlt)
      rw [hnone] at hx
      cases hx
  | starts hp hx hs | succeeds hp hx hs | fails hp hx hs =>
    rcases Pool.lives_setInstance hx hi with ⟨rfl, -⟩ | hi
    · exact .inr (.inl (by rw [index?, hp]))
    · exact .inl hi
  | stops hp hx hs | stopped hp hx hs =>
    exact .inl (Pool.lives_of_endures hx ((Instance.endures_shutdown ..).becomes hs) hi)
  | settles hp hh => exact .inl ((Pool.lives_congr (instances_settle ..)).mp hi)
  | clears hp hh => exact .inl ((Pool.lives_congr (instances_clear ..)).mp hi)
  | begins | refused | crashes | resumes | marks => exact .inl hi

/-- A start gives up only what it has terminated. -/
theorem StartJob.Goes.keeps {a a' : StartJob} (h : a.Goes w p n q a') (hi : a.index? = some i)
    (hc : ∀ {k h f}, a.phase = .stopping k i h f → ∀ x, p.instance? i = some x → h.Closes x)
    (hl : q.Lives i) : a'.index? = some i := by
  cases h with
  | begins hp | connects hp | refused hp | crashes hp | resumes hp | marks hp | clears hp =>
    rw [index?, hp] at hi
    cases hi
  | starts hp hx hs | succeeds hp hx hs | fails hp hx hs =>
    rw [index?, hp] at hi
    exact hi
  | stops hp hx hs =>
    rw [index?, hp] at hi
    exact hi
  | stopped hp hx hs =>
    rw [index?, hp] at hi
    cases hi
    obtain ⟨z, hz, hl⟩ := hl
    rw [Pool.instance?_setInstance hx, if_pos rfl] at hz
    cases hz
    exact absurd (((Instance.yields_shutdown ..).ended hs).2 (hc hp _ hx)) hl
  | @settles r hp hh =>
    rw [index?, hp] at hi
    cases r with
    | ok k => exact hi
    | error f => cases hi

/-- A start that is over has the instance that it has brought. -/
theorem StartJob.phase_of_index {a : StartJob} (hi : a.index? = some i) (hw : a.isUnderWay = false) :
    a.phase = .over (.ok i) := by
  unfold index? at hi
  unfold isUnderWay at hw
  cases hp : a.phase with
  | «over» r =>
    rw [hp] at hi
    cases r with
    | ok k =>
      cases hi
      rfl
    | error f => cases hi
  | cleared cause =>
    rw [hp] at hi
    cases hi
  | begin | launching | starting | stopping | pausing | marking | settling | crashed =>
    rw [hp] at hw
    cases hw

theorem isUnderWay_of_all {a : StartJob} (h : p.starts.all (!·.isUnderWay) = true)
    (ha : p.start? j = some a) : a.isUnderWay = false := by
  simpa using List.all_eq_true.mp h a (List.mem_of_getElem? ha)

/-- What keeps starts, and brings nothing to life. -/
theorem Pool.Covered.of (h : p.Covered) (hl : ∀ {i}, q.Lives i → p.Lives i)
    (hs : ∀ {j a}, p.start? j = some a → q.start? j = some a) : q.Covered := by
  intro i hi
  obtain ⟨j, a, ha, hj⟩ := h (hl hi)
  exact ⟨j, a, hs ha, hj⟩

theorem Pool.Covered.start {a a' : StartJob} (h : p.Covered) (ha : p.start? n = some a)
    (hg : a.Goes w p n q a')
    (hc : ∀ {k i h f}, a.phase = .stopping k i h f → ∀ x, p.instance? i = some x → h.Closes x) :
    (q.setStart n a').Covered := by
  have hstart := hg.start?_setStart ha
  have hown : (q.setStart n a').start? n = some a' := by rw [hstart, if_pos rfl]
  intro i hi
  have hkeeps : a.index? = some i →
      ∃ j b, (q.setStart n a').start? j = some b ∧ b.index? = some i :=
    fun hidx => ⟨n, a', hown, hg.keeps hidx hc hi⟩
  rcases hg.lives hi with hlive | hidx | hidx
  · obtain ⟨j, b, hb, hidx⟩ := h hlive
    by_cases hjn : j = n
    · subst hjn
      rw [ha] at hb
      cases hb
      exact hkeeps hidx
    · exact ⟨j, b, by rw [hstart, if_neg hjn, hb], hidx⟩
  · exact hkeeps hidx
  · exact ⟨n, a', hown, hidx⟩

namespace Depot

variable {P : Depot → Event → Prop} {s s' t : Depot} {e : Event}

theorem covered_of_happens (hc : s.pool.Covered) (ho : s.Orderly) (hcl : s.Closing)
    (he : s.Happens e s') : s'.pool.Covered := by
  cases he with
  | elapses | lands | rests | visits => exact hc
  | besides hx hy => exact hc.of (Pool.lives_of_endures hx hy) id
  | givesUp hv hb =>
    exact hc.of (Pool.lives_congr (instances_letGo ..)).mp fun ha =>
      (Pool.start?_congr (starts_letGo ..) _).trans ha
  | starts hj hg => exact hc.start hj hg fun hp => hcl.starts hj hp
  | goes hv hb hg =>
    refine hc.of (ho.handles hv hb hg).lives fun {j a} ha => ?_
    rcases hg.turn.starts with hs | ⟨b, rfl⟩
    · exact (Pool.start?_congr hs j).trans ha
    · exact (Pool.start?_claim s.pool b).mpr (.inl ha)

/-- **Instances have starts.** What is not terminated belongs to a start. -/
theorem covered_of_reachable (h : Reachable P s) : s.pool.Covered := by
  refine Reachable.induct (I := fun s => s.pool.Covered) ?_ (fun s e t hr ih _ ha => ?_) h
  · intro budget roots directory isProcess clientProcess i hi
    obtain ⟨x, hx, -⟩ := hi
    cases hx
  · exact covered_of_happens ih (orderly_of_reachable hr) (closing_of_reachable hr)
      (happens_of_act ha)

/-! ## Instances in hand -/

/-- A visitor stops an instance, or did so when the visitor gave up. -/
def InHand (s : Depot) (i : Nat) : Prop :=
  ∃ (n : Nat) (v : Visitor) (h : Instance.Shutdown), s.visitors[n]? = some v ∧
    (i, h) ∈ v.state.hands

theorem not_inHand_of_flatMap (h : s.visitors.flatMap (·.state.hands) = []) : ¬ s.InHand i := by
  rintro ⟨n, v, stop, hv, hin⟩
  rw [List.flatMap_eq_nil_iff.mp h v (List.mem_of_getElem? hv)] at hin
  cases hin

/-- What is in hand stays in hand until it is terminated. -/
theorem inHand_of_happens (ho : s.Orderly) (hcl : s.Closing) (he : s.Happens e s')
    (hi : s.InHand i) (hl : s'.pool.Lives i) : s'.InHand i := by
  obtain ⟨n, v, h, hv, hin⟩ := hi
  obtain ⟨v', hv', -⟩ := visitor_of_happens he hv
  cases fares_of_happens he hv' with
  | stays hu =>
    obtain rfl := Option.some.inj (hv.symm.trans hu)
    exact ⟨n, v, h, hv', hin⟩
  | comes hvisit hn heq =>
    have hlt := (List.getElem?_eq_some_iff.mp hv).1
    exact absurd hlt (Nat.not_lt_of_le hn)
  | goes hu hb hg heq =>
    obtain rfl := Option.some.inj (hv.symm.trans hu)
    have hbusy := hin
    rw [hb] at hbusy
    obtain ⟨h', hin'⟩ := (ho.handles hu hb hg).stays hbusy (hcl.hands hu hin).closes hl
    exact ⟨n, v', h', hv', heq ▸ hin'⟩
  | leaves hu hb heq =>
    obtain rfl := Option.some.inj (hv.symm.trans hu)
    rw [hb] at hin
    exact ⟨n, v', h, hv', heq ▸ hin⟩

/-- What was brought is terminated or in hand. -/
def Released (s : Depot) (i : Nat) : Prop := s.pool.Lives i → s.InHand i

theorem lives_of_brings (hr : Reachable P s) (he : s.Happens e s') (hb : s.pool.Brings c i)
    (hl : s'.pool.Lives i) : s.pool.Lives i := by
  have hm := made_of_reachable hr
  have hlasts : s.pool.Lasts s'.pool i :=
    lasts_of_happens (orderly_of_reachable hr) he (hb.calm hm)
  exact hlasts.lives (exists_of_brings hb hm) hl

theorem released_of_happens (hr : Reachable P s) (he : s.Happens e s') (hb : s.pool.Brings c i)
    (h : s.Released i) : s'.Released i := fun hl =>
  inHand_of_happens (orderly_of_reachable hr) (closing_of_reachable hr) he
    (h (lives_of_brings hr he hb hl)) hl

/-! ## Instances whose starts are over -/

/-- What starts have brought is in the slot of its command, in hand, or terminated. -/
def Kept (s : Depot) : Prop :=
  ∀ {c i}, s.pool.Brings c i → s.pool.Lives i → s.pool.Holds c i ∨ s.InHand i

/-- Whether a start puts something else in the place of an instance. -/
def Displaces (s : Depot) (e : Event) : Prop :=
  (∃ n exited, e = .start n exited) ∧
    ∃ s' c i, s.act e = some s' ∧ s.pool.Holds c i ∧ ¬ s'.pool.Holds c i

/-- An instance is brought when it is put into the slot. -/
theorem brings_of_happens (he : s.Happens e s') (hb : s'.pool.Brings c i) :
    s.pool.Brings c i ∨ s'.pool.Holds c i := by
  cases he with
  | elapses | lands | rests | visits | besides => exact .inl hb
  | givesUp hv hd =>
    obtain ⟨j, a, ha, hb⟩ := hb
    exact .inl ⟨j, a, (Pool.start?_congr (starts_letGo ..) j).symm.trans ha, hb⟩
  | goes hv hd hg =>
    obtain ⟨j, a, ha, hover, hc⟩ := hb
    rcases hg.turn.starts with hs | ⟨b, rfl⟩
    · exact .inl ⟨j, a, (Pool.start?_congr hs j).symm.trans ha, hover, hc⟩
    · rcases (Pool.start?_claim s.pool b).mp ha with ha | ⟨-, rfl⟩
      · exact .inl ⟨j, a, ha, hover, hc⟩
      · cases hover
  | @starts n exited b b' q hn hg =>
    obtain ⟨j, a, ha, hover, hc⟩ := hb
    rw [hg.start?_setStart hn] at ha
    split_ifs at ha
    · cases ha
      rcases hg.cases with ⟨-, -, hw, -⟩ | hends
      · rw [StartJob.isUnderWay, hover] at hw
        cases hw
      · have hholds := hends.brings hover
        rw [← hg.backend, hc] at hholds
        exact .inr hholds
    · exact .inl ⟨j, a, ha, hover, hc⟩

/-- An instance leaves its slot into somebody's hands, unless a start puts something in its place. -/
theorem holds_of_happens (ho : s.Orderly) (hd : ¬ s.Displaces e) (ha : s.act e = some s')
    (hi : s.pool.Holds c i) : s'.pool.Holds c i ∨ s'.InHand i := by
  have he := happens_of_act ha
  cases he with
  | elapses | lands | rests | visits | besides => exact .inl hi
  | givesUp hv hb =>
    refine .inl ?_
    change (letGo s.pool _).Holds c i
    unfold letGo
    split <;> exact hi
  | starts hj hg =>
    by_contra hnot
    exact hd ⟨⟨_, _, rfl⟩, _, c, i, ha, hi, fun h => hnot (.inl h)⟩
  | @goes n exited verdict v d q state hv hb hg =>
    cases ho.handles hv hb hg with
    | rests heq hs hh => exact .inl (hs hi)
    | takes heq hb' hs hh =>
      have hvisitor := visitors_setVisitor hv q state n
      rw [if_pos rfl] at hvisitor
      exact (hs hi).imp_right fun hin => ⟨n, _, _, hvisitor, hin⟩
    | advances hx hs hb' hh hq | ends hx hs hb' hh hq =>
      subst hq
      exact .inl hi

theorem kept_of_act (hr : Reachable P s) (hk : s.Kept) (hd : ¬ s.Displaces e)
    (ha : s.act e = some s') : s'.Kept := by
  have he := happens_of_act ha
  intro c i hb hl
  rcases brings_of_happens he hb with hold | hholds
  · rcases hk hold (lives_of_brings hr he hold hl) with hholds | hin
    · exact holds_of_happens (orderly_of_reachable hr) hd ha hholds
    · exact .inr (inHand_of_happens (orderly_of_reachable hr) (closing_of_reachable hr) he hin hl)
  · exact .inl hholds

/-- **Custody.** As long as no start puts something in the place of an instance, what starts have
brought is in the slot of its command, in hand, or terminated. -/
theorem kept_of_reachable (h : Reachable (fun s e => ¬ s.Displaces e) s) : s.Kept := by
  refine Reachable.induct (I := Kept) ?_ (fun s e t hr ih hd ha => kept_of_act hr ih hd ha) h
  intro budget roots directory isProcess clientProcess c i hb hl
  obtain ⟨x, hx, -⟩ := hl
  cases hx

/-! ## Starts that keep their markers -/

/-- A start that has its slot changes no other slot. -/
theorem marks_of_start {exited : Nat → Bool} (ho : s.pool.Owned)
    (ha : s.act (.start n exited) = some s') (hc : s'.pool.slot? c ≠ s.pool.slot? c) :
    s.pool.Marks c n := by
  cases happens_of_act ha with
  | rests => exact absurd rfl hc
  | @starts n exited b b' q hj hg =>
    rcases hg.cases with ⟨hslots, -⟩ | hends
    · refine absurd ?_ hc
      rw [Pool.slot?, Pool.setStart, hslots]
      rfl
    · by_cases hcmd : c = b.backend.command
      · exact ho c n ⟨b, hj, hg.isUnderWay, hcmd.symm⟩
      · exact absurd (hends.slot? hcmd) hc

theorem displaces_of_owned (ho : s.pool.Owned) : ¬ s.Displaces e := by
  rintro ⟨⟨n, exited, rfl⟩, s', c, i, ha, ⟨used, hi⟩, hnot⟩
  have hchanged : s'.pool.slot? c ≠ s.pool.slot? c := fun heq => hnot ⟨used, heq.trans hi⟩
  exact (marks_of_start ho ha hchanged).not_holds ⟨used, hi⟩

theorem undisplaced_of_reachable (h : Reachable (fun s e => ¬ s.Evicts e) s) :
    Reachable (fun s e => ¬ s.Displaces e) s := by
  refine h.induct (fun budget roots directory isProcess clientProcess => ⟨_, _, _, _, _, .refl⟩)
    fun s e t hr ih _ ha => ih.run (Run.refl.step ?_ ha)
  exact displaces_of_owned (owned_of_reachable hr)

/-- **Starts settle their own slots.** As long as nobody takes a slot away from a start: a start
changes a slot only if the slot is held for that start, and an instance that is not terminated is in
the slot of its command, in the hands of a visitor, or that of a start under way. -/
theorem settles_own_slot (h : Reachable (fun s e => ¬ s.Evicts e) s) :
    (∀ n exited s' c, s.act (.start n exited) = some s' → s'.pool.slot? c ≠ s.pool.slot? c →
      s.pool.Marks c n) ∧
    ∀ i x, s.pool.instance? i = some x → x.lifecycle ≠ .terminated →
      s.pool.Holds x.backend.command i ∨ s.InHand i ∨
        ∃ j a, s.pool.start? j = some a ∧ a.isUnderWay = true ∧ a.index? = some i := by
  have howned := owned_of_reachable h
  refine ⟨fun n exited s' c ha hc => marks_of_start howned ha hc, fun i x hx hlive => ?_⟩
  obtain ⟨j, a, ha, hi⟩ := covered_of_reachable h ⟨x, hx, hlive⟩
  cases hw : a.isUnderWay with
  | true => exact .inr (.inr ⟨j, a, ha, hw, hi⟩)
  | false =>
    obtain ⟨y, hy, hback⟩ := (made_of_reachable h).made ha hi
    rw [hx] at hy
    cases hy
    have hbrings : s.pool.Brings x.backend.command i :=
      ⟨j, a, ha, StartJob.phase_of_index hi hw, by rw [hback]⟩
    have hkept := kept_of_reachable (undisplaced_of_reachable h) hbrings ⟨x, hx, hlive⟩
    exact hkept.imp_right .inl

/-- A start that is about to put its instance into its slot, and that has done so. -/
def unsettled : Depot :=
  (sample.follow ([.visit (.ready python), go 0, go 0] ++ preparing 0)).getD sample

def settled : Depot := (unsettled.act (advance 0)).getD sample

theorem reachable_unsettled : Reachable (fun _ e => e.isShutdown = false) unsettled := by
  have hfollow : sample.follow ([.visit (.ready python), go 0, go 0] ++ preparing 0) =
      some unsettled := by rfl
  exact ⟨_, _, _, _, _, Run.of_follow (fun _ => by decide) hfollow⟩

theorem settles_own_slot_first :
    unsettled.pool.Marks python.command 0 ∧ settled.pool.Holds python.command 0 := by
  have hact : unsettled.act (advance 0) = some settled := by rfl
  have hsettled : Reachable (fun _ e => e.isShutdown = false) settled :=
    reachable_unsettled.run (Run.refl.step rfl hact)
  have hchanged : settled.pool.slot? python.command ≠ unsettled.pool.slot? python.command := by
    have hnew : settled.pool.slot? python.command = some (.ready 0 0) := by rfl
    have hold : unsettled.pool.slot? python.command = some (.initializing 0) := by rfl
    rw [hnew, hold]
    decide
  obtain ⟨hown, -⟩ := settles_own_slot (undisturbed_of_reachable reachable_unsettled).reachable
  obtain ⟨-, hkept⟩ := settles_own_slot (undisturbed_of_reachable hsettled).reachable
  refine ⟨hown 0 _ settled _ hact hchanged, ?_⟩
  obtain ⟨x, hx, hback, hlive⟩ : ∃ x, settled.pool.instance? 0 = some x ∧ x.backend = python ∧
      x.lifecycle ≠ .terminated := ⟨_, rfl, rfl, by decide⟩
  have hhands : settled.visitors.flatMap (·.state.hands) = [] := by rfl
  have hover : settled.pool.starts.all (!·.isUnderWay) = true := by rfl
  rcases hkept 0 x hx hlive with hholds | ⟨n, v, h, hv, hin⟩ | ⟨j, a, ha, hw, -⟩
  · rwa [hback] at hholds
  · exact absurd ⟨n, v, h, hv, hin⟩ (not_inHand_of_flatMap hhands)
  · rw [isUnderWay_of_all hover ha] at hw
    cases hw

/-! ## Starts that lost their markers -/

/-- Visitor 1 takes the slot away from the first start, visitor 2 makes the second one, and then the
first one puts its instance into the slot. -/
def displacing : List Event :=
  [.visit (.ready python), go 0, go 0] ++ preparing 0 ++
    [.visit (.stop (.command python.command)), go 1, go 1] ++
    [.visit (.ready python), go 2, go 2] ++ bringing 1 ++ [go 2, advance 0, go 0]

def displaced : Depot := (sample.follow displacing).getD sample

/-- After a start has lost its marker, there can be an instance that nobody has and that is not
terminated. -/
theorem orphaned :
    ¬ ∀ (s : Depot) (i : Nat) (x : Instance), Reachable (fun _ _ => True) s →
      (∀ c j, ¬ s.pool.IsStarting c j) → (∀ k, ¬ s.InHand k) → s.pool.instance? i = some x →
      x.lifecycle ≠ .terminated → s.pool.Holds x.backend.command i := by
  intro h
  have hfollow : sample.follow displacing = some displaced := by rfl
  have hover : displaced.pool.starts.all (!·.isUnderWay) = true := by rfl
  have hhands : displaced.visitors.flatMap (·.state.hands) = [] := by rfl
  have hslot : displaced.pool.slot? python.command = some (.ready 0 0) := by rfl
  obtain ⟨x, hx, hback, hlive⟩ : ∃ x, displaced.pool.instance? 1 = some x ∧ x.backend = python ∧
      x.lifecycle ≠ .terminated := ⟨_, rfl, rfl, by decide⟩
  obtain ⟨used, hholds⟩ : displaced.pool.Holds x.backend.command 1 := by
    refine h displaced 1 x ⟨_, _, _, _, _, Run.of_follow (fun _ _ _ => trivial) hfollow⟩ ?_ ?_ hx hlive
    · rintro c j ⟨a, ha, hw, -⟩
      rw [isUnderWay_of_all hover ha] at hw
      cases hw
    · exact fun k => not_inHand_of_flatMap hhands
  rw [hback, hslot] at hholds
  cases hholds

end Depot

end DiagnosticBroker
