import DiagnosticBroker.Proofs.Instance.Holdings
import DiagnosticBroker.Proofs.Pool.Moves

/-!
# What becomes of the instances of a pool

An operation on a pool leaves the instances as they are, adds a new one, or does to one of them what
its start does or somebody who stops it. Whatever this keeps of an instance is so kept by all that
happens to a depot, apart from what happens beside an instance.

Results:
* `StartJob.Goes.alters`, `Errand.Goes.alters`: what starts and visitors do.
* `alters_of_happens`: what an event does.
-/

namespace DiagnosticBroker

variable {w : Surroundings} {p q r : Pool} {n : Nat}

/-- What an operation does to the instances of a pool. It leaves no document to be closed. -/
inductive Pool.Alters (p q : Pool) : Prop where
  | keeps (hi : q.instances = p.instances) (hl : q.leftOpen = p.leftOpen)
  | adds (b : Backend) (hi : q.instances = (p.addInstance b).1.instances)
      (hl : q.leftOpen = p.leftOpen)
  | services {k : Nat} {x y : Instance} (hx : p.instance? k = some x) (hy : x.Serviced y)
      (hi : q.instances = (p.setInstance k y).instances) (hl : q.leftOpen = p.leftOpen)

namespace Pool.Alters

theorem refl (p : Pool) : p.Alters p := .keeps rfl rfl

/-- What has the same instances and the same documents that were left open, comes to the same. -/
theorem congr (h : p.Alters q) (hi : r.instances = q.instances) (hl : r.leftOpen = q.leftOpen) :
    p.Alters r := by
  cases h with
  | keeps hi' hl' => exact .keeps (hi.trans hi') (hl.trans hl')
  | adds b hi' hl' => exact .adds b (hi.trans hi') (hl.trans hl')
  | services hx hy hi' hl' => exact .services hx hy (hi.trans hi') (hl.trans hl')

end Pool.Alters

/-! ## Operations -/

theorem Pool.alters_clearInstance (p : Pool) (c : Command) (i : Nat) :
    p.Alters (p.clearInstance c i) := by
  rcases Pool.clearInstance_cases p c i with ⟨-, heq⟩ | ⟨-, heq⟩ <;> rw [heq]
  · exact .keeps rfl rfl
  · exact .refl p

theorem StartJob.alters_settle (p : Pool) (j : StartJob) (r : StartResult) :
    p.Alters (settle p j r).1 := by
  cases r <;> exact .keeps rfl rfl

theorem StartJob.alters_clear (p : Pool) (n : Nat) (j : StartJob) (cause : String) :
    p.Alters (clear p n j cause).1 := by
  simp only [clear]
  split_ifs <;> exact .keeps rfl rfl

theorem StartJob.Goes.alters {j j' : StartJob} (h : j.Goes w p n q j') : p.Alters q := by
  cases h with
  | connects => exact .adds j.backend rfl rfl
  | starts _ hx hy | succeeds _ hx hy | fails _ hx hy => exact .services hx (.starts hy) rfl rfl
  | stops _ hx hy | stopped _ hx hy => exact .services hx (.stops hy) rfl rfl
  | settles => exact alters_settle ..
  | clears => exact alters_clear ..
  | begins | refused | crashes | resumes | marks => exact .keeps rfl rfl

theorem Retire.Goes.alters {c : Command} {i : Nat} {r : Retire} {t : Task Retire Unit}
    (h : r.Goes w p c i q t) : p.Alters q := by
  cases h with
  | removes => exact Pool.alters_clearInstance p c i
  | stops hx hs | stopped hx hs => exact .services hx (.stops hs) rfl rfl

theorem Ensure.Goes.alters {e : Ensure} {t : Task Ensure StartResult} (h : e.Goes w p q t) :
    p.Alters q := by
  cases h with
  | retires _ hr | retired _ hr => exact hr.alters
  | touches | claims => exact .keeps rfl rfl
  | _ => exact .refl p

theorem Execute.Goes.alters {x : Execute Nat} {t : Task (Execute Nat) (Except Fault Nat)}
    (h : x.Goes w p q t) : p.Alters q := by
  cases h with
  | ensures _ he | begins _ he | fails _ he => exact he.alters
  | retires _ hr | retired _ hr => exact hr.alters
  | _ => exact .refl p

theorem StopAll.Goes.alters {s : StopAll} {t : Task StopAll Unit} (h : s.Goes w p q t) :
    p.Alters q := by
  cases h with
  | stops hx hs | stopped hx hs => exact .services hx (.stops hs) rfl rfl
  | ends => exact .refl p

theorem Stop.Goes.alters {s : Stop} {t : Task Stop Nat} (h : s.Goes w p q t) : p.Alters q := by
  cases h with
  | takes | takesAll | holds | takesNone | asks => exact .keeps rfl rfl
  | @takesFound _ found =>
    obtain ⟨slots, heq⟩ := Pool.clearAll_eq found { p with held := false }
    rw [heq]
    exact .keeps rfl rfl
  | stops _ hr | ends _ hr => exact hr.alters

theorem Errand.Goes.alters {e : Errand} {state : Visitor.State} (h : e.Goes w p q state) :
    p.Alters q := by
  cases h with
  | ready h | readied h | work h | worked h | stop h | stopped h => exact h.alters

/-! ## Events -/

namespace Depot

variable {s s' : Depot} {e : Event}

theorem alters_letGo (p : Pool) (e : Errand) : p.Alters (letGo p e) := by
  unfold letGo
  split <;> exact .keeps rfl rfl

/-- **Events.** Apart from what happens beside an instance, an event alters the instances of a pool no
more than an operation does. -/
theorem alters_of_happens (h : s.Happens e s') (he : ∀ i event, e ≠ .beside i event) :
    s.pool.Alters s'.pool := by
  cases h with
  | elapses | lands | rests | visits => exact .keeps rfl rfl
  | starts hj hg => exact hg.alters.congr rfl rfl
  | goes hv hb hg => exact hg.alters
  | givesUp hv hb => exact alters_letGo ..
  | besides => exact absurd rfl (he _ _)

end Depot

end DiagnosticBroker
