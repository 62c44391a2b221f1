import DiagnosticBroker.Proofs.Pool.Callers
import DiagnosticBroker.Proofs.Pool.Draining
import DiagnosticBroker.Proofs.Pool.Sharing

/-!
# Instances that are out of use for good

An instance is dismissed when it is terminated and in no slot. It stays so, and since instances are
only ever taken out of slots, whoever does not hold it then never comes to hold it. Whoever takes an
instance out of use has dismissed it in the end, even if somebody else has emptied the slot or begun
to stop the instance before.

Results:
* `dismissed_of_happens`, `Dismissed.stirs`: what is dismissed stays dismissed.
* `untaken_of_happens`, `Absent.untaken`: nobody comes to hold what is in no slot.
* `Retires.goes`: an instance that is taken out of use is dismissed in the end.
-/

namespace DiagnosticBroker

open Pool (Thins)

variable {w : Surroundings} {p q : Pool} {c d : Command} {i k n : Nat}

/-! ## What a caller does to slots and instances -/

theorem Retire.Goes.lasts {r : Retire} {t : Task Retire Unit} (h : r.Goes w p c k q t) (i : Nat) :
    p.Lasts q i := by
  cases h with
  | removes hh =>
    rcases Pool.clearInstance_cases p c k with ⟨-, heq⟩ | ⟨-, heq⟩ <;> rw [heq]
    · exact Pool.lasts_of_eq rfl
    · exact Pool.lasts_of_eq rfl
  | stops hx hs | stopped hx hs =>
    exact Pool.lasts_setInstance hx fun _ => (Instance.endures_shutdown ..).becomes hs

theorem Ensure.Goes.lasts {e : Ensure} {t : Task Ensure StartResult} (h : e.Goes w p q t) (i : Nat) :
    p.Lasts q i := by
  cases h with
  | retires hp hr | retired hp hr => exact hr.lasts i
  | finds | passes | rejects | touches | enlists | parks | returns | misses | claims | joins =>
    exact Pool.lasts_of_eq rfl

namespace Pool.Stirs

variable (h : Pool.Stirs w p q)

include h

theorem lasts (i : Nat) : p.Lasts q i := by
  cases h with
  | rests hq => exact hq ▸ lasts_of_eq rfl
  | seeks he => exact he.lasts i
  | works hx hy hc hq => exact hq ▸ lasts_setInstance hx fun _ => hy

theorem thins_or_claims :
    Thins p q ∨ ∃ b : Backend, p.slot? b.command = none ∧ q = p.claim b := by
  cases h with
  | rests hq => exact hq ▸ .inl ⟨rfl, id, id, id⟩
  | seeks he => exact he.spares_or_claims.imp (·.toThins) fun ⟨_, hslot, hq⟩ => ⟨_, hslot, hq⟩
  | works hx hy hc hq =>
    subst hq
    exact .inl (Spares.toThins (.of_eq rfl rfl rfl))

theorem settles : p.Settles q k := by
  rcases h.thins_or_claims with hthins | ⟨b, -, rfl⟩
  · exact settles_of_eq hthins.starts
  · exact settles_claim p b

end Pool.Stirs

/-- An instance was brought for one command only. -/
theorem Pool.Made.command_eq (hm : p.Made) (hc : p.Brings c i) (hd : p.Brings d i) : c = d := by
  obtain ⟨j, a, ha, hover, rfl⟩ := hc
  obtain ⟨k, b, hb, hover', rfl⟩ := hd
  have hjk := hm.apart ha hb (by rw [StartJob.index?, hover]) (by rw [StartJob.index?, hover'])
  subst hjk
  rw [ha] at hb
  cases hb
  rfl

namespace Depot

variable {P : Depot → Event → Prop} {s s' t : Depot} {e : Event}

/-! ## Dismissed instances -/

/-- An instance that was brought is in no slot and is terminated. -/
structure Dismissed (s : Depot) (i : Nat) : Prop extends s.Absent i where
  terminated : ∃ x, s.pool.instance? i = some x ∧ x.lifecycle = .terminated

theorem Dismissed.of_lasts (h : s.Dismissed i) (ha : t.Absent i) (hl : s.pool.Lasts t.pool i) :
    t.Dismissed i := by
  obtain ⟨x, hx, hterminated⟩ := h.terminated
  obtain ⟨y, hy, hend⟩ := hl hx
  exact ⟨ha, y, hy, hend.terminated hterminated⟩

/-- **Events.** What is dismissed stays dismissed. -/
theorem dismissed_of_happens (ho : s.Orderly) (hm : s.pool.Made) (h : s.Dismissed i)
    (he : s.Happens e s') : s'.Dismissed i := by
  obtain ⟨c, hbrings⟩ := h.brings
  exact h.of_lasts (absent_of_happens hm h.toAbsent he) (lasts_of_happens ho he (hbrings.calm hm))

/-- Nobody comes to hold what is in no slot. -/
theorem untaken_of_happens (ho : s.Orderly) (he : s.Happens e s') (h : s'.Absent i)
    (hn : s.taken? n ≠ some i) : s'.taken? n ≠ some i := by
  intro hk
  rcases taken_of_happens ho he hk with hk | ⟨c, -, hholds⟩
  · exact hn hk
  · exact h.holds c hholds

theorem Absent.stirs (h : s.Absent i) (hs : Pool.Stirs w s.pool q) :
    Absent { s with pool := q } i := by
  obtain ⟨d, hbrings⟩ := h.brings
  refine ⟨⟨d, hbrings.grows hs.grows⟩, fun c hc => ?_⟩
  rcases hs.thins_or_claims with hthins | ⟨b, -, rfl⟩
  · exact h.holds c (hthins.holds hc)
  · exact h.holds c (Pool.holds_claim.mp hc).2

/-- What is dismissed stays dismissed, whatever a caller does who is not among the visitors. -/
theorem Dismissed.stirs (h : s.Dismissed i) (hs : Pool.Stirs w s.pool q) :
    Dismissed { s with pool := q } i :=
  h.of_lasts (h.toAbsent.stirs hs) (hs.lasts i)

/-- No visitor comes to hold what is in no slot by what such a caller does. -/
theorem Absent.untaken (h : s.Absent i) (hs : Pool.Stirs w s.pool q) (ho : s.Orderly)
    (hn : s.taken? n ≠ some i) : taken? { s with pool := q } n ≠ some i := by
  intro hk
  obtain ⟨v, hv, hk⟩ := Option.bind_eq_some_iff.mp hk
  rcases taken_of_settles ho hs.settles hv hk with hk | ⟨c, -, hholds⟩
  · exact hn hk
  · exact (h.stirs hs).holds c hholds

/-! ## Taking an instance out of use -/

/-- What is known of an instance that is being taken out of use: once the slot was emptied, it is in
no slot, and its shutdown stops it for good. -/
def Retires (s : Depot) (i : Nat) : Retire → Prop
  | .remove => True
  | .stopping h => s.Absent i ∧ s.Stops i h

theorem Retires.happens {r : Retire} (hr : s.Retires i r) (ho : s.Orderly) (hm : s.pool.Made)
    (he : s.Happens e s') : s'.Retires i r := by
  cases r with
  | remove => trivial
  | stopping h => exact ⟨absent_of_happens hm hr.1 he, hr.2.happens ho hm he⟩

/-- Where the slot of its command is emptied, an instance is in no slot. -/
theorem absent_of_removes (hmarked : s.pool.Marked) (hm : s.pool.Made) (hi : s.pool.Brings c i) :
    Absent { s with pool := s.pool.clearInstance c i } i := by
  have hunheld : ∀ d, ¬ (s.pool.clearInstance c i).Holds d i := by
    intro d hd
    rcases Pool.clearInstance_cases s.pool c i with ⟨-, heq⟩ | ⟨hnot, heq⟩ <;> rw [heq] at hd
    · obtain ⟨hne, hd⟩ := Pool.holds_clearSlot.mp hd
      exact hne (hm.command_eq (hmarked.holds hd) hi)
    · obtain rfl := hm.command_eq (hmarked.holds hd) hi
      exact hnot hd
  exact ⟨⟨c, hi.grows (Pool.grows_clearInstance ..)⟩, hunheld⟩

/-- **Retiring.** A step of taking an instance out of use keeps what is known of it, and in the end it
is dismissed. -/
theorem Retires.goes {r : Retire} {o : Task Retire Unit} (hr : s.Retires i r)
    (hmarked : s.pool.Marked) (hm : s.pool.Made) (hi : s.pool.Brings c i)
    (hg : r.Goes w s.pool c i q o) :
    (∀ r', o = .running r' → Retires { s with pool := q } i r') ∧
      (o = .ended () → Dismissed { s with pool := q } i) := by
  have hbrings : q.Brings c i := hi.grows hg.grows
  have habsent : ∀ {h : Instance.Shutdown}, r = .stopping h → Absent { s with pool := q } i := by
    rintro h rfl
    exact ⟨⟨c, hbrings⟩, fun d hd => hr.1.holds d (hg.spares.holds hd)⟩
  cases hg with
  | removes hh =>
    refine ⟨fun r' hr' => ?_, fun hend => by cases hend⟩
    cases hr'
    exact ⟨absent_of_removes hmarked hm hi, ⟨c, hbrings⟩, fun x _ hclosed => by cases hclosed⟩
  | @stops h h' x y hx hs =>
    refine ⟨fun r' hr' => ?_, fun hend => by cases hend⟩
    cases hr'
    refine ⟨habsent rfl, ⟨c, hbrings⟩, fun z hz => ?_⟩
    rw [Pool.instance?_setInstance hx, if_pos rfl] at hz
    cases hz
    exact ((Instance.yields_shutdown ..).running hs).2 (hr.2.closes x hx)
  | @stopped h x y hx hs =>
    refine ⟨fun r' hr' => (by cases hr'), fun _ => ⟨habsent rfl, y, ?_, ?_⟩⟩
    · exact (Pool.instance?_setInstance hx i).trans (if_pos rfl)
    · exact ((Instance.yields_shutdown ..).ended hs).2 (hr.2.closes x hx)

end Depot

end DiagnosticBroker
