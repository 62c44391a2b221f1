import DiagnosticBroker.Proofs.Pool.Instances
import DiagnosticBroker.Proofs.Pool.Tracking

/-!
# Callers who are not among the visitors

A check of a file, or any other work that is looked at closely, is kept beside its depot and not among
the visitors. To the pool it is one more caller: each of its steps is that of somebody who wants an
instance, or does something to one instance.

Results:
* `Stirs.grows`, `Stirs.tracks`, `Stirs.made`: what such a step keeps of a pool.
* `Stirs.orderly`: such a step leaves a depot orderly.
-/

namespace DiagnosticBroker

open Pool (Grows Tracks)

variable {w : Surroundings} {p q : Pool}

/-- What the step of such a caller does to the pool: what somebody does who wants an instance, or
something to one instance. -/
inductive Pool.Stirs (w : Surroundings) (p q : Pool) : Prop where
  | rests (hq : q = p)
  | seeks {e : Ensure} {t : Task Ensure StartResult} (he : e.Goes w p q t)
  | works {i : Nat} {x y : Instance} (hx : p.instance? i = some x) (hy : x.Endures y)
      (hc : x.collector.Grounded → x.collector.Tracks y.collector) (hq : q = p.setInstance i y)

theorem Pool.modifyInstance_of_none {i : Nat} (hx : p.instance? i = none)
    (f : Instance → Instance) : p.modifyInstance i f = p := by
  have hlen : p.instances.length ≤ i := List.getElem?_eq_none_iff.mp hx
  rw [modifyInstance, List.modify_eq_self hlen]

theorem Pool.modifyInstance_of_some {i : Nat} {x : Instance} (hx : p.instance? i = some x)
    (f : Instance → Instance) : p.modifyInstance i f = p.setInstance i (f x) := by
  obtain ⟨hlt, hget⟩ := List.getElem?_eq_some_iff.mp hx
  have hmodify : p.instances.modify i f = p.instances.set i (f x) := by
    refine List.ext_getElem? fun k => ?_
    by_cases hk : i = k
    · subst hk
      simp [hlt, hget]
    · simp [hk]
  rw [modifyInstance, hmodify, setInstance]

namespace Pool.Stirs

theorem grows (h : Pool.Stirs w p q) : Grows p q := by
  cases h with
  | rests hq => exact hq ▸ .refl p
  | seeks he => exact he.grows
  | works hx hy hc hq => exact hq ▸ Pool.grows_setInstance hx hy.backend

theorem tracks (h : Pool.Stirs w p q) (hp : p.Grounded) : Tracks p q := by
  cases h with
  | rests hq =>
    subst hq
    exact .refl hp
  | seeks he => exact he.alters.tracks hp
  | works hx hy hc hq => exact hq ▸ Pool.tracks_setInstance hp hx (hc (hp hx))

theorem made (h : Pool.Stirs w p q) (hp : p.Made) : q.Made := by
  have hgrows := h.grows
  cases h with
  | rests hq => exact hq ▸ hp
  | works hx hy hc hq => exact hp.grows (by rw [hq]; rfl) hgrows
  | seeks he =>
    rcases he.spares_or_claims with hs | ⟨-, -, rfl⟩
    · exact hp.grows hs.starts hgrows
    · exact hp.claim _

end Pool.Stirs

/-- A caller who is not among the visitors leaves the depot orderly. -/
theorem Depot.Orderly.joined {s : Depot} (ho : s.Orderly) {e : Errand} {state : Visitor.State}
    (hg : e.Goes w s.pool q state) (he : e.asked? = none) (hs : state.asked? = none) :
    Depot.Orderly { s with pool := q } where
  marked := ho.marked.turn hg.turn
  guarded := by
    have hnobody : s.askedBy? s.visitors.length = none := by
      rw [Depot.askedBy?, List.getElem?_eq_none (Nat.le_refl _)]
      rfl
    have hguarded := ho.guarded.turn ho.marked.keyed (hnobody.trans he.symm) hg.turn
    rw [hs, ← hnobody, Function.update_eq_self] at hguarded
    exact hguarded
  suits := ho.suits
  sound hv hd := (ho.sound hv hd).grows hg.grows

/-- Something that is done to an instance leaves the depot orderly. -/
theorem Depot.Orderly.worked {s : Depot} (ho : s.Orderly) {i : Nat} {x y : Instance}
    (hx : s.pool.instance? i = some x) (hy : x.Endures y) :
    Depot.Orderly { s with pool := s.pool.setInstance i y } := by
  have hhappens : s.Happens (.beside i .start)
    { s with pool := s.pool.setInstance i y, scenes := s.scenes } := .besides hx hy
  exact ho.happens hhappens

theorem Pool.Stirs.orderly {s : Depot} (h : Pool.Stirs w s.pool q) (ho : s.Orderly) :
    Depot.Orderly { s with pool := q } := by
  cases h with
  | rests hq => exact hq ▸ ho
  | works hx hy hc hq => exact hq ▸ ho.worked hx hy
  | @seeks e t he =>
    cases t with
    | running e' => exact ho.joined (.ready he) rfl rfl
    | ended r => exact ho.joined (.readied he) rfl rfl
    | abandoned => exact nomatch he

end DiagnosticBroker
