import DiagnosticBroker.Proofs.Pool.Callers
import DiagnosticBroker.Proofs.Validation.Moves

/-!
# Checks and depots

To a pool, a check is one more caller who wants an instance and then does something to it. So the
depot in which a file is checked stays orderly, and what the check knows of its instance is true.

Results:
* `stirs_of_goes`: what a step of a check does to the pool.
* `standing_of_reachable`: the depot is orderly, and the check has the instance that it works with.
-/

namespace DiagnosticBroker

open Pool (Grows Tracks)

variable {files : FileTree} {now : Time} {w : Surroundings} {p q : Pool} {notes : List Note}

/-! ## What a check does to the pool -/

theorem stirs_of_close (p : Pool) (s : Session) : Pool.Stirs w p (s.close p) := by
  cases hx : p.instance? s.index with
  | none => exact .rests (Pool.modifyInstance_of_none hx _)
  | some x =>
    refine .works hx ?_ (fun hg => ?_) (Pool.modifyInstance_of_some hx _)
    · have h := (Instance.wanes_closeDocument x s.uri).endures
      exact ⟨h.backend, h.capabilities, h.terminated⟩
    · have h := Instance.tracks_of_eq hg (Instance.collector_closeDocument x s.uri)
      exact h.trans (Collector.tracks_release h.grounded s.waiter)

theorem stirs_of_round {r : Round} {t : Task Round Wait.Outcome}
    (h : r.Goes files w.now p q t notes) : Pool.Stirs w p q := by
  cases h with
  | reads | unreadable | waits | hears => exact .rests rfl
  | @opens o text x y version waiter ht hx ho =>
    have hend := Instance.wanes_openDocument x w.now (Uri.ofPath p.directory o.path)
      o.languageId text
    rw [ho] at hend
    exact .works hx hend.endures (fun hg =>
      (Instance.tracks_of_opens hg (Instance.opens_of_openDocument ho)).1) rfl
  | @refused o text x y f ht hx ho =>
    have hend := Instance.wanes_openDocument x w.now (Uri.ofPath p.directory o.path)
      o.languageId text
    rw [ho] at hend
    exact .works hx hend.endures (fun hg =>
      Instance.tracks_of_refuses hg (Instance.refuses_of_openDocument ho)) rfl
  | closes => exact stirs_of_close p _

theorem stirs_of_proceeds {path languageId : String} {x : Execute Round}
    {t : Task (Execute Round) Wait.Outcome}
    (h : x.Proceeds files path languageId w p q t notes) : Pool.Stirs w p q := by
  cases h with
  | ensures hp he | begins hp he | unready hp he => exact .seeks he
  | goesOn hp hr | gives hp hr | breaks hp hr => exact stirs_of_round hr
  | @retires q i r r' hp hr =>
    exact .seeks (Ensure.Goes.retires (e := ⟨x.backend, .retire i r⟩) rfl hr)
  | @retired q i r hp hr deadline =>
    exact .seeks (Ensure.Goes.retired (e := ⟨x.backend, .retire i r⟩) rfl hr)
  | restarts => exact .rests rfl

/-- **Steps.** To a pool, a check is one more caller. -/
theorem stirs_of_goes {r : Rules} {v : Validation} {t : Task Validation Report}
    (h : v.Goes r files w p q t notes) : Pool.Stirs w p q := by
  cases h with
  | rejects | selects => exact .rests rfl
  | works hp hx | ends hp hx => exact stirs_of_proceeds hx

/-! ## What a check knows -/

/-- The instance that a round works with. -/
def Round.index : Round → Nat
  | .opening o => o.index
  | .waiting s _ => s.index
  | .closing s _ => s.index

/-- What the work for a check knows of its instance. -/
def Execute.Stands (p : Pool) (x : Execute Round) : Prop :=
  match x.phase with
  | .ensuring e => e.backend = x.backend ∧ e.Sound p
  | .running i r => r.index = i ∧ p.Brings x.backend.command i
  | .retiring i _ => p.Brings x.backend.command i
  | .pausing _ => True

theorem Execute.Stands.grows {x : Execute Round} (h : x.Stands p) (hg : Grows p q) :
    x.Stands q := by
  unfold Execute.Stands at h ⊢
  cases hp : x.phase <;> simp only [hp] at h ⊢
  case ensuring => exact ⟨h.1, h.2.grows hg⟩
  case running => exact ⟨h.1, h.2.grows hg⟩
  case retiring => exact h.grows hg

theorem Round.Goes.index {r r' : Round} (h : r.Goes files now p q (.running r') notes) :
    r'.index = r.index := by
  cases h with
  | reads | opens | waits => rfl
  | @hears s v x o => cases o <;> rfl

/-- A step of the work leaves it with something true. -/
theorem Execute.Proceeds.stands {path languageId : String} {x x' : Execute Round}
    (h : x.Proceeds files path languageId w p q (.running x') notes) (hm : p.Marked)
    (hx : x.Stands p) : x'.Stands q := by
  have hg := (stirs_of_proceeds h).grows
  unfold Execute.Stands at hx
  cases h with
  | ensures hp he =>
    simp only [hp] at hx
    obtain ⟨hs, hb⟩ := he.sound hm hx.2
    exact ⟨hb.trans hx.1, hs⟩
  | begins hp he =>
    simp only [hp] at hx
    have hbrings := he.brings hx.2
    rw [hx.1] at hbrings
    exact ⟨rfl, hbrings⟩
  | goesOn hp hr =>
    simp only [hp] at hx
    exact ⟨hr.index.trans hx.1, hx.2.grows hg⟩
  | breaks hp hr =>
    simp only [hp] at hx
    exact hx.2.grows hg
  | retires hp hr =>
    simp only [hp] at hx
    exact hx.grows hg
  | retired => exact trivial
  | restarts => exact ⟨rfl, trivial⟩

namespace Inspection

variable {rules : Rules} {file : String} {s s' : Inspection} {e : Event}

/-- The depot of an inspection is orderly, and what its check knows is true. -/
structure Standing (rules : Rules) (file : String) (s : Inspection) : Prop where
  rules_eq : s.rules = rules
  orderly : s.depot.Orderly
  made : s.depot.pool.Made
  grounded : s.depot.pool.Grounded
  kept : s.check ≠ .abandoned
  file_eq : ∀ {v}, s.check = .running v → v.file = file
  stands : ∀ {v path languageId x}, s.check = .running v →
    v.phase = .working path languageId x → x.Stands s.depot.pool

theorem Standing.happens (hs : s.Standing rules file) (h : s.Happens e s') :
    s'.Standing rules file := by
  cases h with
  | edits t =>
    exact ⟨hs.rules_eq, hs.orderly, hs.made, hs.grounded, hs.kept, hs.file_eq, hs.stands⟩
  | others ha =>
    have hd := Depot.happens_of_act ha
    exact {
      rules_eq := hs.rules_eq
      orderly := hs.orderly.happens hd
      made := Depot.made_of_happens hs.made hd
      grounded := (Depot.tracks_of_act hs.grounded ha).grounded
      kept := hs.kept
      file_eq := hs.file_eq
      stands := fun hv hp => (hs.stands hv hp).grows (Depot.grows_of_happens hd) }
  | @steps exited v q t notes hv hg =>
    have hstirs := stirs_of_goes hg
    refine {
      rules_eq := hs.rules_eq
      orderly := hstirs.orderly hs.orderly
      made := hstirs.made hs.made
      grounded := (hstirs.tracks hs.grounded).grounded
      kept := by cases hg <;> exact nofun
      file_eq := fun hv' => ?_
      stands := fun hv' hp' => ?_ }
    · have hfile := hs.file_eq hv
      cases hg <;> cases hv' <;> exact hfile
    · cases hg with
      | rejects | ends => cases hv'
      | selects =>
        cases hv'
        cases hp'
        exact ⟨rfl, trivial⟩
      | works hp hx =>
        cases hv'
        cases hp'
        exact hx.stands hs.orderly.marked (hs.stands hv hp)

/-- **Standing.** The depot in which a file is checked is orderly, and what the check knows is
true. -/
theorem standing_of_reachable (h : Reachable rules file s) : s.Standing rules file := by
  refine h.induct (fun files budget roots directory isProcess clientProcess => ?_)
    fun s e t _ ih ha => ih.happens (happens_of_act ha)
  have hnew : Depot.Reachable (fun _ _ => True) (.new budget roots directory isProcess clientProcess) :=
    ⟨_, _, _, _, _, .refl⟩
  exact {
    rules_eq := rfl
    orderly := Depot.orderly_of_reachable hnew
    made := Depot.made_of_reachable hnew
    grounded := fun hx => by cases hx
    kept := nofun
    file_eq := fun hv => by cases hv; rfl
    stands := fun hv hp => by cases hv; cases hp }

end Inspection

end DiagnosticBroker
