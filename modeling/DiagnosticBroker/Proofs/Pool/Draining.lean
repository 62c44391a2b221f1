import DiagnosticBroker.Proofs.Pool.Custody

/-!
# What is left when all backends are stopped

Stopping all backends empties every slot in one step, takes in hand what was there, and ends when all
of that is terminated. An instance that has left its slot never comes back to one, so that only starts
that were not over when the slots were emptied leave anything behind.

Results:
* `absent_of_happens`: what has left its slot stays out of all slots.
* `released_of_run`: what is in hand is terminated, or still in hand, at any later time.
* `drained_by_shutdown`: what is left when all backends are stopped.
* `refilled`: a start that was not over can fill its slot again.
-/

namespace DiagnosticBroker

open Pool (Grows)

variable {w : Surroundings} {p q : Pool} {c : Command} {i j n : Nat}

/-- A start is over. -/
def Pool.Ended (p : Pool) (j : Nat) : Prop := ∃ a, p.start? j = some a ∧ a.isUnderWay = false

/-- The pool `q` has an instance of a start that was not over in `p`. -/
def Pool.Newer (p q : Pool) (i : Nat) : Prop :=
  ∃ j a, q.start? j = some a ∧ a.index? = some i ∧ ¬ p.Ended j

/-- What a start has brought that was over, was brought then. -/
theorem Pool.brings_of_ended {a : StartJob} (hg : Grows p q) (hj : p.Ended j)
    (ha : q.start? j = some a) (hi : a.index? = some i) : p.Brings a.backend.command i := by
  obtain ⟨b, hb, hover⟩ := hj
  obtain ⟨a', ha', -, hsame⟩ := hg.start hb
  rw [ha] at ha'
  cases ha'
  obtain rfl := hsame hover
  exact ⟨j, a, hb, StartJob.phase_of_index hi hover, rfl⟩

/-- A slot is not held for a start that was over. -/
theorem Pool.Marked.not_ended (hm : q.Marked) (hg : Grows p q) (hc : q.Marks c j) : ¬ p.Ended j := by
  rintro ⟨b, hb, hover⟩
  obtain ⟨a, ha, hw, -⟩ := hm.marks hc
  obtain ⟨a', ha', -, hsame⟩ := hg.start hb
  rw [ha] at ha'
  cases ha'
  obtain rfl := hsame hover
  rw [hw] at hover
  cases hover

theorem Pool.slots_eq_nil (h : p.Keyed) (hm : ∀ c j, ¬ p.Marks c j) (hh : ∀ c i, ¬ p.Holds c i) :
    p.slots = [] := by
  refine List.eq_nil_iff_forall_not_mem.mpr ?_
  rintro ⟨c, slot⟩ hslot
  rw [mem_slots_iff h] at hslot
  cases slot with
  | initializing j => exact hm c j hslot
  | ready i used => exact hh c i ⟨used, hslot⟩

namespace Depot

variable {P Q : Depot → Event → Prop} {s s' t u : Depot} {e : Event}

/-! ## Out of all slots -/

/-- An instance that was brought is in no slot. -/
structure Absent (s : Depot) (i : Nat) : Prop where
  brings : ∃ c, s.pool.Brings c i
  holds : ∀ c, ¬ s.pool.Holds c i

/-- **Departures.** What has left its slot stays out of all slots. -/
theorem absent_of_happens (hm : s.pool.Made) (h : s.Absent i) (he : s.Happens e s') :
    s'.Absent i := by
  obtain ⟨d, hbrings⟩ := h.brings
  refine ⟨⟨d, hbrings.grows (grows_of_happens he)⟩, fun c hc => ?_⟩
  cases he with
  | elapses | lands | rests | visits | besides => exact h.holds c hc
  | givesUp hv hb => exact h.holds c ((thins_letGo ..).holds hc)
  | goes hv hb hg =>
    rcases hg.turn.thins_or_claims with hthins | ⟨b, -, rfl⟩
    · exact h.holds c (hthins.holds hc)
    · exact h.holds c (Pool.holds_claim.mp hc).2
  | @starts m exited a a' q hj hg =>
    rcases hg.cases with ⟨hslots, -⟩ | hends
    · refine h.holds c ?_
      obtain ⟨used, hc⟩ := hc
      exact ⟨used, by rwa [Pool.slot?, Pool.setStart, hslots] at hc⟩
    by_cases hcmd : c = a.backend.command
    · subst hcmd
      rcases hends.holds hc with hold | hover
      · exact h.holds _ hold
      -- The start that is over now is not the one that has brought the instance before.
      · obtain ⟨k, b, hk, hover', -⟩ := hbrings
        have hidx : a.index? = some i := by
          rcases hg.index_cases with hsame | ⟨-, hnew⟩
          · exact hsame i (by rw [StartJob.index?, hover])
          · rw [StartJob.index?, hover] at hnew
            cases hnew
            obtain ⟨x, hx, -⟩ := hm.made hk (by rw [StartJob.index?, hover'])
            exact absurd (List.getElem?_eq_some_iff.mp hx).1 (Nat.lt_irrefl _)
        have hkm : k = m := hm.apart hk hj (by rw [StartJob.index?, hover']) hidx
        subst hkm
        rw [hj] at hk
        cases hk
        have hway := hg.isUnderWay
        rw [StartJob.isUnderWay, hover'] at hway
        cases hway
    · obtain ⟨used, hc⟩ := hc
      exact h.holds c ⟨used, (hends.slot? hcmd).symm.trans hc⟩

theorem absent_of_run (hr : Reachable Q s) (h : s.Absent i) (hrun : Run P s t) : t.Absent i := by
  induction hrun with
  | refl => exact h
  | step hrun _ ha ih =>
    exact absent_of_happens (made_of_reachable (hr.runs hrun)) ih (happens_of_act ha)

/-- **Releases.** What is in hand is terminated, or still in hand, at any later time. -/
theorem released_of_run (hr : Reachable Q s) (hb : s.pool.Brings c i) (h : s.Released i)
    (hrun : Run P s t) : t.Released i := by
  induction hrun with
  | refl => exact h
  | step hrun _ ha ih =>
    exact released_of_happens (hr.runs hrun) (happens_of_act ha) (hb.grows (grows_of_run hrun)) ih

/-! ## Stopping all -/

/-- The first step of stopping all backends empties the slots. -/
theorem slots_of_stopping {v : Visitor} {count : Nat} {exited : Nat → Bool}
    {verdict : Except Fault Unit} (hv : s.visitors[n]? = some v)
    (hb : v.state = .busy (.stop ⟨.all, count, .begin⟩))
    (ha : s.act (.go n exited verdict) = some u) : u.pool.slots = [] := by
  cases happens_of_act ha with
  | goes hu hd hg =>
    obtain rfl := Option.some.inj (hv.symm.trans hu)
    rw [hb] at hd
    cases hd
    cases hg with
    | stopped h =>
      cases h with
      | ends hp hr => cases hp
    | stop h =>
      cases h with
      | takesAll => rfl
      | takes hp hc | holds hp hc | takesNone hp hc => cases hc
      | asks hp | takesFound hp | stops hp => cases hp

theorem displaces_go {exited : Nat → Bool} {verdict : Except Fault Unit} :
    ¬ s.Displaces (.go n exited verdict) := by
  rintro ⟨⟨m, exited', h⟩, -⟩
  cases h

theorem not_holds_of_emptied (h : u.pool.slots = []) : ¬ u.pool.Holds c i := by
  rintro ⟨used, hholds⟩
  rw [Pool.slot?, h] at hholds
  cases hholds

section Emptied

variable (hu : Reachable (fun s e => ¬ s.Displaces e) u) (hslots : u.pool.slots = [])
  (hrun : Run P u t)

include hu hslots hrun

/-- A slot that is filled after all were emptied has an instance of a start that was not over. -/
theorem newer_of_holds (h : t.pool.Holds c i) : u.pool.Newer t.pool i := by
  have ht := hu.runs hrun
  obtain ⟨j, a, ha, hover, -⟩ := (orderly_of_reachable ht).marked.holds h
  have hi : a.index? = some i := by rw [StartJob.index?, hover]
  refine ⟨j, a, ha, hi, fun hend => ?_⟩
  have hbrings := Pool.brings_of_ended (grows_of_run hrun) hend ha hi
  have habsent : u.Absent i := ⟨⟨_, hbrings⟩, fun _ => not_holds_of_emptied hslots⟩
  exact (absent_of_run hu habsent hrun).holds c h

/-- An instance that is not terminated after all slots were emptied is that of a start that was not
over, or in hand. -/
theorem newer_or_inHand_of_lives (h : t.pool.Lives i) : u.pool.Newer t.pool i ∨ t.InHand i := by
  have ht := hu.runs hrun
  obtain ⟨j, a, ha, hi⟩ := covered_of_reachable ht h
  by_cases hend : u.pool.Ended j
  · have hbrings := Pool.brings_of_ended (grows_of_run hrun) hend ha hi
    have hreleased : u.Released i := fun hl =>
      (kept_of_reachable hu hbrings hl).resolve_left (not_holds_of_emptied hslots)
    exact .inr (released_of_run hu hbrings hreleased hrun h)
  · exact .inl ⟨j, a, ha, hi, hend⟩

end Emptied

/-- **Draining.** Somebody begins to stop all backends, and is done at some later time, whatever else
happens meanwhile. A slot is then held only for a start, and has only an instance of a start, that was
not over when the slots were emptied. An instance that is not terminated is that of such a start, or
in somebody else's hands. So if all starts were over then and nobody else stops instances, the slots
are empty and all instances are terminated. -/
theorem drained_by_shutdown {v v' : Visitor} {count : Nat} {r : Reply} {exited : Nat → Bool}
    {verdict : Except Fault Unit} (h : Reachable (fun s e => ¬ s.Displaces e) s)
    (hv : s.visitors[n]? = some v) (hb : v.state = .busy (.stop ⟨.all, count, .begin⟩))
    (ha : s.act (.go n exited verdict) = some u) (hrun : Run P u t)
    (hv' : t.visitors[n]? = some v') (hdone : v'.state = .done r) :
    (∀ c j, t.pool.Marks c j → ¬ u.pool.Ended j) ∧
    (∀ c i, t.pool.Holds c i → u.pool.Newer t.pool i) ∧
    (∀ i, t.pool.Lives i → u.pool.Newer t.pool i ∨
      ∃ (m : Nat) (v : Visitor) (h : Instance.Shutdown),
        m ≠ n ∧ t.visitors[m]? = some v ∧ (i, h) ∈ v.state.hands) ∧
    ((∀ j a, t.pool.start? j = some a → u.pool.Ended j) →
      (∀ (m : Nat) (v : Visitor), m ≠ n → t.visitors[m]? = some v → v.state.hands = []) →
        t.pool.slots = [] ∧ ∀ i, ¬ t.pool.Lives i) := by
  have hslots := slots_of_stopping hv hb ha
  have hu : Reachable (fun s e => ¬ s.Displaces e) u := h.run (Run.refl.step displaces_go ha)
  have hmarked := (orderly_of_reachable (hu.runs hrun)).marked
  have hmarks : ∀ c j, t.pool.Marks c j → ¬ u.pool.Ended j :=
    fun c j hc => hmarked.not_ended (grows_of_run hrun) hc
  have hholds : ∀ c i, t.pool.Holds c i → u.pool.Newer t.pool i :=
    fun c i => newer_of_holds hu hslots hrun
  -- The visitor who is done has nothing in hand.
  have hlives : ∀ i, t.pool.Lives i → u.pool.Newer t.pool i ∨
      ∃ (m : Nat) (v : Visitor) (h : Instance.Shutdown),
        m ≠ n ∧ t.visitors[m]? = some v ∧ (i, h) ∈ v.state.hands := by
    intro i hi
    refine (newer_or_inHand_of_lives hu hslots hrun hi).imp_right ?_
    rintro ⟨m, v, z, hm, hin⟩
    refine ⟨m, v, z, ?_, hm, hin⟩
    rintro rfl
    rw [hv'] at hm
    cases hm
    rw [hdone] at hin
    cases hin
  refine ⟨hmarks, hholds, hlives, fun hover hhands => ⟨?_, fun i hi => ?_⟩⟩
  · refine Pool.slots_eq_nil hmarked.keyed (fun c j hc => ?_) fun c i hc => ?_
    · obtain ⟨a, ha', -⟩ := hmarked.marks hc
      exact hmarks c j hc (hover j a ha')
    · obtain ⟨j, a, ha', -, hend⟩ := hholds c i hc
      exact hend (hover j a ha')
  · rcases hlives i hi with ⟨j, a, ha', -, hend⟩ | ⟨m, v, z, hm, hvm, hin⟩
    · exact hend (hover j a ha')
    · rw [hhands m v hm hvm] at hin
      cases hin

/-- An instance is in its slot, and nothing is under way. -/
def idling : Depot :=
  (sample.follow ([.visit (.ready python), go 0, go 0] ++ bringing 0 ++ [go 0])).getD sample

/-- Visitor 1 is about to stop all backends, has emptied the slots, and is done. -/
def stopping : Depot := (idling.act (.visit (.stop .all))).getD sample

def emptied : Depot := (stopping.act (go 1)).getD sample

/-- What a backend answers to the second request. -/
def farewell : Wire.Message := .response (.success (.number 2) .null)

/-- The backend answers, and its process is waited for as long as it may take. -/
def draining : List Event :=
  [go 1, go 1, .beside 0 (.receive farewell), .beside 0 .read, go 1, .elapse 10000 0, go 1, go 1,
    .elapse 10000 0, go 1, go 1, go 1]

def drained : Depot := (emptied.follow draining).getD sample

theorem drained_by_shutdown_idle : drained.pool.slots = [] ∧ ∀ i, ¬ drained.pool.Lives i := by
  have hidling : sample.follow ([.visit (.ready python), go 0, go 0] ++ bringing 0 ++ [go 0]) =
      some idling := by rfl
  have hundisturbed : Reachable (fun _ e => e.isShutdown = false) idling :=
    ⟨_, _, _, _, _, Run.of_follow (fun _ => by decide) hidling⟩
  have hkept := undisplaced_of_reachable (undisturbed_of_reachable hundisturbed).reachable
  have hvisit : idling.act (.visit (.stop .all)) = some stopping := by rfl
  have hstopping : Reachable (fun s e => ¬ s.Displaces e) stopping :=
    hkept.run (Run.refl.step (fun ⟨⟨_, _, h⟩, _⟩ => by cases h) hvisit)
  have hbegin : stopping.visitors[1]? = some ⟨.stop .all, .busy (.stop ⟨.all, 0, .begin⟩)⟩ := by rfl
  have hact : stopping.act (go 1) = some emptied := by rfl
  have hfollow : emptied.follow draining = some drained := by rfl
  have hrun : Run (fun _ _ => True) emptied drained := Run.of_follow (fun _ _ _ => trivial) hfollow
  have hdone : drained.visitors[1]? = some ⟨.stop .all, .done (.stopped 1)⟩ := by rfl
  obtain ⟨-, -, -, hleft⟩ :=
    drained_by_shutdown hstopping hbegin rfl hact hrun hdone rfl
  refine hleft (fun j a ha => ?_) fun m v hm hv => ?_
  · have hstarts : drained.pool.starts = emptied.pool.starts := by rfl
    have hover : drained.pool.starts.all (!·.isUnderWay) = true := by rfl
    exact ⟨a, (Pool.start?_congr hstarts j).symm.trans ha, isUnderWay_of_all hover ha⟩
  · have hhands : drained.visitors.flatMap (·.state.hands) = [] := by rfl
    exact List.flatMap_eq_nil_iff.mp hhands v (List.mem_of_getElem? hv)

/-! ## Starts that were not over -/

/-- Visitor 1 is about to stop all backends, and a start is about to put its instance into its slot. -/
def racing : Depot := (unsettled.act (.visit (.stop .all))).getD sample

/-- The slots are empty, the visitor is done, and then the start is over. -/
def overtaken : Depot := (racing.act (go 1)).getD sample

def overtaking : List Event := [go 1, advance 0, go 0]

def refilling : Depot := (overtaken.follow overtaking).getD sample

/-- After all backends were stopped, and although all starts are over and nobody stops instances,
there can be a slot with an instance. -/
theorem refilled :
    ¬ ∀ (s u t : Depot) (n count : Nat) (v v' : Visitor) (r : Reply) (exited : Nat → Bool)
        (verdict : Except Fault Unit), Reachable (fun s e => ¬ s.Displaces e) s →
      s.visitors[n]? = some v → v.state = .busy (.stop ⟨.all, count, .begin⟩) →
      s.act (.go n exited verdict) = some u → Run (fun _ e => ∀ wish, e ≠ .visit wish) u t →
      t.visitors[n]? = some v' → v'.state = .done r → (∀ c j, ¬ t.pool.IsStarting c j) →
      (∀ i, ¬ t.InHand i) → t.pool.slots = [] := by
  intro h
  have hunsettled : Reachable (fun s e => ¬ s.Displaces e) unsettled :=
    undisplaced_of_reachable (undisturbed_of_reachable reachable_unsettled).reachable
  have hvisit : unsettled.act (.visit (.stop .all)) = some racing := by rfl
  have hracing : Reachable (fun s e => ¬ s.Displaces e) racing :=
    hunsettled.run (Run.refl.step (fun ⟨⟨_, _, h⟩, _⟩ => by cases h) hvisit)
  have hbegin : racing.visitors[1]? = some ⟨.stop .all, .busy (.stop ⟨.all, 0, .begin⟩)⟩ := by rfl
  have hact : racing.act (go 1) = some overtaken := by rfl
  have hfollow : overtaken.follow overtaking = some refilling := by rfl
  have hquiet : ∀ e ∈ overtaking, ∀ wish, e ≠ .visit wish := by
    rintro e he wish rfl
    simp [overtaking, go, advance] at he
  have hdone : refilling.visitors[1]? = some ⟨.stop .all, .done (.stopped 0)⟩ := by rfl
  have hover : refilling.pool.starts.all (!·.isUnderWay) = true := by rfl
  have hhands : refilling.visitors.flatMap (·.state.hands) = [] := by rfl
  have hslots : refilling.pool.slots = [(python.command, .ready 0 0)] := by rfl
  have hempty := h _ _ _ _ _ _ _ _ _ _ hracing hbegin rfl hact
    (Run.of_follow (fun _ => hquiet) hfollow) hdone rfl
    (fun c j ⟨a, ha, hw, _⟩ => by
      rw [isUnderWay_of_all hover ha] at hw
      cases hw)
    fun i => not_inHand_of_flatMap hhands
  rw [hslots] at hempty
  cases hempty

end Depot

end DiagnosticBroker
