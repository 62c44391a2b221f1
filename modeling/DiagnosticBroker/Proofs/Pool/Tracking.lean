import DiagnosticBroker.Proofs.Instance.Tracking
import DiagnosticBroker.Proofs.Pool.Alterations

/-!
# What becomes of the channels of all instances

No event of a depot takes an instance away, and whatever it does to one keeps track of what waiters
see.

Results:
* `tracks_of_act`: every event keeps track of what waiters see.
-/

namespace DiagnosticBroker

variable {p q : Pool}

namespace Pool

/-- In every instance, subscriptions have channels. -/
def Grounded (p : Pool) : Prop := ∀ {i x}, p.instance? i = some x → x.collector.Grounded

/-- The instances of `p` are still there in `q`, and track is kept of what waiters see in them. -/
structure Tracks (p q : Pool) : Prop where
  grounded : q.Grounded
  instance? : ∀ {i x}, p.instance? i = some x →
    ∃ y, q.instance? i = some y ∧ x.collector.Tracks y.collector

theorem Tracks.trans {r : Pool} (h : Tracks p q) (h' : Tracks q r) : Tracks p r where
  grounded := h'.grounded
  instance? hx := by
    obtain ⟨y, hy, hxy⟩ := h.instance? hx
    obtain ⟨z, hz, hyz⟩ := h'.instance? hy
    exact ⟨z, hz, hxy.trans hyz⟩

theorem tracks_of_eq (hp : p.Grounded) (hi : q.instances = p.instances) : Tracks p q where
  grounded hx := by
    rw [Pool.instance?, hi] at hx
    exact hp hx
  instance? hx := ⟨_, by rwa [Pool.instance?, hi], .refl (hp hx)⟩

theorem Tracks.refl (hp : p.Grounded) : Tracks p p := tracks_of_eq hp rfl

theorem tracks_setInstance {k : Nat} {x y : Instance} (hp : p.Grounded)
    (hx : p.instance? k = some x) (hy : x.collector.Tracks y.collector) :
    Tracks p (p.setInstance k y) where
  grounded {i z} hz := by
    rw [instance?_setInstance hx] at hz
    split_ifs at hz
    · cases hz
      exact hy.grounded
    · exact hp hz
  instance? {i z} hz := by
    rw [instance?_setInstance hx]
    split_ifs with hi
    · subst hi
      rw [hx] at hz
      cases hz
      exact ⟨y, rfl, hy⟩
    · exact ⟨z, hz, .refl (hp hz)⟩

theorem tracks_addInstance (hp : p.Grounded) (b : Backend) : Tracks p (p.addInstance b).1 where
  grounded {i z} hz := by
    simp only [addInstance, Pool.instance?, List.getElem?_append] at hz
    split_ifs at hz
    · exact hp hz
    · rw [List.mem_singleton.mp (List.mem_of_getElem? hz)]
      exact Collector.grounded_new _ _
  instance? hx :=
    ⟨_, (List.getElem?_append_left (List.getElem?_eq_some_iff.mp hx).1).trans hx, .refl (hp hx)⟩

end Pool

open Pool (Tracks)

/-- **Operations.** Whatever an operation does to the instances keeps track of what waiters see. -/
theorem Pool.Alters.tracks (h : p.Alters q) (hp : p.Grounded) : Tracks p q := by
  cases h with
  | keeps hi => exact tracks_of_eq hp hi
  | adds b hi =>
    have hadd := tracks_addInstance hp b
    exact hadd.trans (tracks_of_eq hadd.grounded hi)
  | services hx hy hi =>
    have hset := tracks_setInstance hp hx (hy.tracks (hp hx))
    exact hset.trans (tracks_of_eq hset.grounded hi)

/-! ## Events -/

namespace Depot

variable {P : Depot → Event → Prop} {s s' : Depot} {e : Event}

theorem tracks_of_beside {i : Nat} {event : Scene.Event} (hp : s.pool.Grounded)
    (ha : s.act (.beside i event) = some s') : Tracks s.pool s'.pool := by
  simp only [act, Option.bind_eq_bind, Option.bind_eq_some_iff] at ha
  obtain ⟨x, hx, t, ht, ha⟩ := ha
  cases ha
  have hclient := client_sceneOf s i x
  have hscene : (s.sceneOf i x).client.collector.Grounded := by
    rw [hclient]
    exact hp hx
  have htracks := Scene.tracks_act (start_sceneOf s i x) hscene ht
  rw [hclient] at htracks
  exact Pool.tracks_setInstance hp hx htracks

/-- **Tracking.** Every event keeps track of what waiters see. -/
theorem tracks_of_act (hp : s.pool.Grounded) (ha : s.act e = some s') : Tracks s.pool s'.pool := by
  by_cases hb : ∃ i event, e = .beside i event
  · obtain ⟨i, event, rfl⟩ := hb
    exact tracks_of_beside hp ha
  · exact (alters_of_happens (happens_of_act ha) fun i event he => hb ⟨i, event, he⟩).tracks hp

end Depot

end DiagnosticBroker
