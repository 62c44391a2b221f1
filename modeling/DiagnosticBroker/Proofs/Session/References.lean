import DiagnosticBroker.Proofs.Pool.Callers
import DiagnosticBroker.Proofs.Session.Gathering

/-!
# Who has a document open

An instance counts how many have a document open. Nothing but opening and closing documents changes
these numbers, so in a gathering they are changed by what is marked down of the guests, and by nothing
else: as many have a document open as there are guests who have opened it and not closed it, as long as
there are not too many guests for the counter.

Results:
* `Depot.adjusts_of_act`: nothing else that happens to a pool has a part in this.
* `balanced_of_reachable`: an instance counts the guests who have a document open.
-/

namespace DiagnosticBroker

open Instance (Counted)

variable {p q r : Pool} {i k n : Nat} {x y : Instance} {uri : String}

/-! ## Counts -/

namespace Pool

/-- How many have a document of an instance open. -/
def references (p : Pool) (i : Nat) (uri : String) : Nat :=
  match p.instance? i with
  | some x => x.references uri
  | none => 0

/-- Every document of which some instance has a record is open for somebody. -/
def Counted (p : Pool) : Prop := ∀ i x, p.instance? i = some x → x.Counted

/-- What becomes of a pool: so many have documents open in `q`, and these documents were left to be
closed. -/
structure Adjusts (p q : Pool) (counts : Nat → String → Nat) (left : List (Nat × String)) : Prop where
  counted : p.Counted → q.Counted
  instance? : ∀ {i x}, p.instance? i = some x → ∃ y, q.instance? i = some y
  references : ∀ i uri, q.references i uri = counts i uri
  leftOpen : q.leftOpen = p.leftOpen ++ left

/-- Documents are as open as they were. -/
abbrev Retains (p q : Pool) : Prop := p.Adjusts q p.references []

theorem references_eq (hx : p.instance? i = some x) : p.references i uri = x.references uri := by
  rw [references, hx]

theorem retains_of_eq (hi : q.instances = p.instances) (hl : q.leftOpen = p.leftOpen) :
    p.Retains q := by
  have hsame : ∀ i, q.instance? i = p.instance? i := fun i => by rw [instance?, instance?, hi]
  refine ⟨fun hp i x hx => ?_, fun {i x} hx => ⟨x, ?_⟩, fun i uri => ?_, ?_⟩
  · rw [hsame] at hx
    exact hp _ _ hx
  · rwa [hsame]
  · rw [references, hsame, references]
  · rw [hl, List.append_nil]

theorem adjusts_setInstance {counts : Nat → String → Nat} (hx : p.instance? k = some x)
    (hc : x.Counted → y.Counted) (hself : ∀ uri, y.references uri = counts k uri)
    (hother : ∀ i uri, i ≠ k → p.references i uri = counts i uri) :
    p.Adjusts (p.setInstance k y) counts [] := by
  refine ⟨fun hp i z hz => ?_, fun {i z} hz => ?_, fun i uri => ?_, (List.append_nil _).symm⟩
  · rw [instance?_setInstance hx] at hz
    split_ifs at hz
    · cases hz
      exact hc (hp _ _ hx)
    · exact hp _ _ hz
  · rw [instance?_setInstance hx]
    split_ifs
    · exact ⟨y, rfl⟩
    · exact ⟨z, hz⟩
  · rw [references, instance?_setInstance hx]
    split_ifs with hi
    · rw [hi]
      exact hself uri
    · exact hother i uri hi

/-- What leaves the documents of an instance alone retains them all. -/
theorem retains_setInstance (hx : p.instance? k = some x) (hy : y.documents = x.documents) :
    p.Retains (p.setInstance k y) :=
  adjusts_setInstance hx (fun hc => hc.congr hy)
    (fun _ => by rw [references_eq hx, Instance.references_congr hy]) fun _ _ _ => rfl

/-- What takes so many away from those who have a document of one instance open. -/
theorem adjusts_modifyInstance (p : Pool) (k : Nat) {f : Instance → Instance} (d : String → Nat)
    (hc : ∀ x, x.Counted → (f x).Counted)
    (hf : ∀ x uri, (f x).references uri = x.references uri - d uri) :
    p.Adjusts (p.modifyInstance k f)
      (fun i uri => p.references i uri - if i = k then d uri else 0) [] := by
  cases hx : p.instance? k with
  | none =>
    rw [modifyInstance_of_none hx]
    have hretains := retains_of_eq (q := p) rfl rfl
    refine ⟨hretains.counted, hretains.instance?, fun i uri => ?_, hretains.leftOpen⟩
    split_ifs with hi
    · rw [references, hi, hx]
      exact (Nat.zero_sub _).symm
    · rfl
  | some x =>
    rw [modifyInstance_of_some hx]
    refine adjusts_setInstance hx (hc x) (fun uri => ?_) fun i uri hi => ?_
    · rw [if_pos rfl, references_eq hx, hf]
    · rw [if_neg hi, Nat.sub_zero]

theorem retains_addInstance (p : Pool) (b : Backend) : p.Retains (p.addInstance b).1 := by
  have hnew : ∀ {i z}, (p.addInstance b).1.instance? i = some z →
      p.instance? i = some z ∨ p.instance? i = none ∧ z.documents = [] := by
    intro i z hz
    simp only [addInstance, instance?, List.getElem?_append] at hz
    split_ifs at hz with hlt
    · exact .inl hz
    · rw [List.mem_singleton.mp (List.mem_of_getElem? hz)]
      exact .inr ⟨List.getElem?_eq_none_iff.mpr (Nat.le_of_not_lt hlt), rfl⟩
  have hold : ∀ {i z}, p.instance? i = some z → (p.addInstance b).1.instance? i = some z :=
    fun hx => (List.getElem?_append_left (List.getElem?_eq_some_iff.mp hx).1).trans hx
  refine ⟨fun hp i z hz => ?_, fun hx => ⟨_, hold hx⟩, fun i uri => ?_, (List.append_nil _).symm⟩
  · rcases hnew hz with hz | ⟨-, hnil⟩
    · exact hp _ _ hz
    · intro u d hd
      rw [hnil] at hd
      cases hd
  · cases hz : (p.addInstance b).1.instance? i with
    | none =>
      cases hx : p.instance? i with
      | none => rw [references, references, hz, hx]
      | some x =>
        rw [hold hx] at hz
        cases hz
    | some z =>
      rcases hnew hz with hx | ⟨hx, hnil⟩
      · rw [references_eq hz, references_eq hx]
      · rw [references_eq hz, references, hx, Instance.references, hnil]
        rfl

theorem Retains.trans (h : p.Retains q) (h' : q.Retains r) : p.Retains r where
  counted hp := h'.counted (h.counted hp)
  instance? hx := by
    obtain ⟨y, hy⟩ := h.instance? hx
    exact h'.instance? hy
  references i uri := (h'.references i uri).trans (h.references i uri)
  leftOpen := by rw [h'.leftOpen, h.leftOpen, List.append_assoc, List.append_nil]

/-- **Operations.** Whatever an operation does to the instances, documents are as open as they were. -/
theorem Alters.retains (h : p.Alters q) : p.Retains q := by
  cases h with
  | keeps hi hl => exact retains_of_eq hi hl
  | adds b hi hl => exact (retains_addInstance p b).trans (retains_of_eq hi hl)
  | services hx hy hi hl =>
    exact (retains_setInstance hx hy.documents).trans (retains_of_eq hi hl)

end Pool

/-- **Events.** Whatever happens to a depot, documents are as open as they were, unless somebody opens or
closes one. -/
theorem Depot.retains_of_act {s s' : Depot} {e : Depot.Event}
    (he : ∀ i event, e = .beside i event → event.isAnnouncement = false) (ha : s.act e = some s') :
    s.pool.Retains s'.pool := by
  by_cases hb : ∃ i event, e = .beside i event
  · obtain ⟨i, event, rfl⟩ := hb
    simp only [act, Option.bind_eq_bind, Option.bind_eq_some_iff] at ha
    obtain ⟨x, hx, t, ht, ha⟩ := ha
    cases ha
    have hdocuments := Scene.documents_of_act (start_sceneOf s i x) (he i event rfl) ht
    rw [client_sceneOf] at hdocuments
    exact Pool.retains_setInstance hx hdocuments
  · exact (alters_of_happens (happens_of_act ha) fun i event he => hb ⟨i, event, he⟩).retains

/-! ## Guests -/

open Pool (Adjusts Retains)

/-- What the documents of a pool are counted after a mark. -/
def Mark.count (counts : Nat → String → Nat) : Mark → Nat → String → Nat
  | .opened k uri, i, u => counts i u + if i = k ∧ u = uri then 1 else 0
  | .closed k uri, i, u => counts i u - if i = k ∧ u = uri then 1 else 0

variable {files : FileTree} {now : Time} {notes : List Note} {t : Task Round Wait.Outcome}

/-- Closing a document of an instance takes one away from those who have it open, whatever else is done
to the instance besides. -/
theorem Pool.adjusts_close (p : Pool) (k : Nat) (uri : String) {f : Instance → Instance}
    (hf : ∀ x, (f x).documents = (x.closeDocument uri).1.documents) :
    p.Adjusts (p.modifyInstance k f) ((Mark.closed k uri).count p.references) [] := by
  have hadjusts := p.adjusts_modifyInstance k (f := f) (fun u => if u = uri then 1 else 0)
    (fun x hx => (hx.closes (Instance.closes_closeDocument x uri)).congr (hf x))
    fun x u => by
      rw [Instance.references_congr (hf x), (Instance.closes_closeDocument x uri).references]
  refine ⟨hadjusts.counted, hadjusts.instance?, fun i u => ?_, hadjusts.leftOpen⟩
  rw [hadjusts.references, Mark.count, ite_and]

/-- What a step of a round does to the documents is what is marked down of it, if one more can be
counted when it opens its document. -/
theorem Round.Goes.adjusts {r : Round} (h : r.Goes files now p q t notes)
    (hb : ∀ o, r = .opening o → ∀ u, p.references o.index u < Word.maxU32) :
    p.Adjusts q ((r.marks t).foldl Mark.count p.references) [] := by
  cases h with
  | reads | unreadable | waits | hears => exact Pool.retains_of_eq rfl rfl
  | @opens o text x y version waiter ht hx ho =>
    have hopens := Instance.opens_of_openDocument ho
    have huri : waiter.uri = Uri.ofPath p.directory o.path :=
      Collector.uri_of_register hopens.registered
    have hlt : ∀ u, x.references u < Word.maxU32 := fun u => Pool.references_eq hx ▸ hb o rfl u
    refine Pool.adjusts_setInstance hx (fun hc => hc.opens hopens (hlt _)) (fun u => ?_)
      fun i u hi => ?_
    · rw [hopens.references (hlt u), ← huri, ← Pool.references_eq hx]
      simp [Round.marks, Mark.count, Session.uri]
    · simp [Round.marks, Mark.count, hi]
  | @refused o text x y f ht hx ho =>
    exact Pool.retains_setInstance hx (Instance.refuses_of_openDocument ho).documents
  | @closes s o => exact p.adjusts_close s.index s.uri fun x => rfl

/-- Giving a waiter back leaves the documents as open as they were. -/
theorem Pool.retains_releaseWaiter (p : Pool) (k : Nat) (w : Waiter) :
    p.Retains (p.modifyInstance k fun x => x.releaseWaiter w) := by
  have hadjusts := p.adjusts_modifyInstance k (f := fun x => x.releaseWaiter w) (fun _ => 0)
    (fun x hx => hx.congr rfl) fun x u => rfl
  refine ⟨hadjusts.counted, hadjusts.instance?, fun i u => ?_, hadjusts.leftOpen⟩
  refine (hadjusts.references i u).trans ?_
  rw [ite_self, Nat.sub_zero]

/-- Whoever gives a session up leaves its document as open as it was, and to be closed. -/
theorem Session.adjusts_drop (p : Pool) (s : Session) :
    p.Adjusts (s.drop p) p.references [(s.index, s.uri)] := by
  have hretains := p.retains_releaseWaiter s.index s.waiter
  exact ⟨hretains.counted, hretains.instance?, hretains.references, rfl⟩

/-- What the marks of a guest say who is so far. A guest has a document open from the mark that it was
opened until the mark that it was closed. -/
inductive Guest.Accounted (p : Pool) : Guest → Prop where
  | opening {o : Session.Opening} (hx : ∃ x, p.instance? o.index = some x) :
      Accounted p ⟨.busy (.opening o), []⟩
  | waiting {s : Session} {v : Wait} (hx : ∃ x, p.instance? s.index = some x) :
      Accounted p ⟨.busy (.waiting s v), [.opened s.index s.uri]⟩
  | closing {s : Session} {o : Wait.Outcome} (hx : ∃ x, p.instance? s.index = some x) :
      Accounted p ⟨.busy (.closing s o), [.opened s.index s.uri]⟩
  | failed {o : Wait.Outcome} : Accounted p ⟨.ended o, []⟩
  | closed {o : Wait.Outcome} {i : Nat} {uri : String} :
      Accounted p ⟨.ended o, [.opened i uri, .closed i uri]⟩
  | leaving {k i : Nat} {uri : String} (hk : p.leftOpen[k]? = some (i, uri)) :
      Accounted p ⟨.leaving k, [.opened i uri]⟩
  | declined : Accounted p ⟨.gone, []⟩
  | tidied {i : Nat} {uri : String} : Accounted p ⟨.gone, [.opened i uri, .closed i uri]⟩
  | lost {i : Nat} {uri : String} : Accounted p ⟨.lost, [.opened i uri]⟩

/-- What is so of a guest stays so, whatever is done to the documents by others. -/
theorem Guest.Accounted.adjusts {g : Guest} {counts : Nat → String → Nat}
    {left : List (Nat × String)} (h : g.Accounted p) (hq : p.Adjusts q counts left) :
    g.Accounted q := by
  cases h with
  | opening hx =>
    obtain ⟨x, hx⟩ := hx
    exact .opening (hq.instance? hx)
  | waiting hx =>
    obtain ⟨x, hx⟩ := hx
    exact .waiting (hq.instance? hx)
  | closing hx =>
    obtain ⟨x, hx⟩ := hx
    exact .closing (hq.instance? hx)
  | leaving hk =>
    refine .leaving ?_
    rw [hq.leftOpen, List.getElem?_append_left (List.getElem?_eq_some_iff.mp hk).1]
    exact hk
  | failed => exact .failed
  | closed => exact .closed
  | declined => exact .declined
  | tidied => exact .tidied
  | lost => exact .lost

namespace Gathering

variable {s s' : Gathering} {e : Event} {g g' : Guest} {counts : Nat → String → Nat}
  {left : List (Nat × String)}

/-- Instances count the guests who have a document open. -/
structure Balanced (s : Gathering) : Prop where
  counted : s.depot.pool.Counted
  references : ∀ i uri,
    s.depot.pool.references i uri = s.guests.countP fun g => g.marks = [.opened i uri]
  accounted : ∀ g ∈ s.guests, g.Accounted s.depot.pool

/-- As long as there are not too many guests for the counter, a guest who has opened no document yet can
still be counted. -/
theorem Balanced.references_lt (hs : s.Balanced) (hb : s.guests.length ≤ Word.maxU32)
    (hg : g ∈ s.guests) (hm : g.marks = []) (i : Nat) (uri : String) : s.depot.pool.references i uri < Word.maxU32 := by
  rw [hs.references]
  refine Nat.lt_of_lt_of_le (Nat.lt_of_le_of_ne List.countP_le_length fun hall => ?_) hb
  have hopen := of_decide_eq_true (List.countP_eq_length.mp hall g hg)
  rw [hm] at hopen
  cases hopen

/-- What others do keeps the balance. -/
theorem Balanced.retains {d : Depot} (hs : s.Balanced) (hq : s.depot.pool.Retains d.pool) :
    Balanced { s with depot := d } where
  counted := hq.counted hs.counted
  references i uri := (hq.references i uri).trans (hs.references i uri)
  accounted g hg := (hs.accounted g hg).adjusts hq

/-- What a guest does keeps the balance if the counts change as the guest has a document open. -/
theorem Balanced.setGuest (hs : s.Balanced) (hg : s.guests[n]? = some g)
    (hq : s.depot.pool.Adjusts q counts left) (hg' : g'.Accounted q)
    (hcounts : ∀ i uri, (g.marks = [.opened i uri] → 0 < s.depot.pool.references i uri) →
      (counts i uri + if g.marks = [.opened i uri] then 1 else 0) =
        s.depot.pool.references i uri + if g'.marks = [.opened i uri] then 1 else 0) :
    (s.setGuest n q g').Balanced where
  counted := hq.counted hs.counted
  references i uri := by
    obtain ⟨hlt, rfl⟩ := List.getElem?_eq_some_iff.mp hg
    have hpos : s.guests[n].marks = [.opened i uri] →
        0 < s.guests.countP fun g => g.marks = [.opened i uri] := fun hopen =>
      List.countP_pos_iff.mpr ⟨_, List.getElem_mem hlt, decide_eq_true hopen⟩
    have hcount := hcounts i uri fun hopen => hs.references i uri ▸ hpos hopen
    rw [hs.references] at hcount
    change q.references i uri = (s.guests.set n g').countP _
    rw [hq.references, List.countP_set hlt]
    simp only [decide_eq_true_eq]
    split_ifs at hcount ⊢ with hopen
    · have := hpos hopen
      omega
    · have := hpos hopen
      omega
    · omega
    · omega
  accounted g₁ hg₁ := by
    rcases List.mem_or_eq_of_mem_set hg₁ with hg₁ | rfl
    · exact (hs.accounted g₁ hg₁).adjusts hq
    · exact hg'

/-- Whoever closes a document that was open, is no longer one of those who have it open. -/
theorem count_closed {u : String} (h : [Mark.opened k uri] = [.opened i u] → 0 < p.references i u) :
    ((Mark.closed k uri).count p.references i u +
        if [Mark.opened k uri] = [.opened i u] then 1 else 0) =
      p.references i u + if [Mark.opened k uri, .closed k uri] = [.opened i u] then 1 else 0 := by
  by_cases heq : k = i ∧ uri = u
  · obtain ⟨rfl, rfl⟩ := heq
    have hpos := h rfl
    simp only [Mark.count, and_self, if_true]
    simp
    omega
  · have hne : ¬ (i = k ∧ u = uri) := fun h => heq ⟨h.1.symm, h.2.symm⟩
    simp [Mark.count, hne, heq]

/-- A guest whose session is being opened can still be counted. -/
theorem Balanced.references_lt_of_opening {r : Round} (hs : s.Balanced)
    (hb : s.guests.length ≤ Word.maxU32) (hg : s.guests[n]? = some g) (hr : g.state = .busy r) :
    ∀ o, r = .opening o → ∀ u, s.depot.pool.references o.index u < Word.maxU32 := by
  rintro o rfl u
  have hmem := List.mem_of_getElem? hg
  have haccounted := hs.accounted g hmem
  refine hs.references_lt hb hmem ?_ o.index u
  obtain ⟨state, marks⟩ := g
  cases hr
  cases haccounted with
  | opening => rfl

/-- A step of a session keeps the balance. -/
theorem Balanced.goes {r r' : Round} (hs : s.Balanced) (hb : s.guests.length ≤ Word.maxU32)
    (hg : s.guests[n]? = some g) (hr : g.state = .busy r)
    (hgoes : r.Goes s.files s.depot.now s.depot.pool q (.running r') notes) :
    (s.setGuest n q ⟨.busy r', g.marks ++ r.marks (.running r')⟩).Balanced := by
  have hadjusts := hgoes.adjusts (hs.references_lt_of_opening hb hg hr)
  have haccounted := hs.accounted g (List.mem_of_getElem? hg)
  obtain ⟨state, marks⟩ := g
  cases hr
  cases hgoes with
  | reads =>
    cases haccounted with
    | opening hx => exact hs.setGuest hg hadjusts (.opening hx) fun i uri _ => rfl
  | @opens o text x y version waiter ht hx ho =>
    cases haccounted with
    | opening _ =>
      refine hs.setGuest hg hadjusts (.waiting (hadjusts.instance? hx)) fun i uri _ => ?_
      simp [Round.marks, Mark.count, eq_comm]
  | waits hx hv =>
    cases haccounted with
    | waiting hx => exact hs.setGuest hg hadjusts (.waiting hx) fun i uri _ => rfl
  | @hears s₁ v x o hx hv =>
    cases haccounted with
    | waiting hx => cases o <;> exact hs.setGuest hg hadjusts (.closing hx) fun i uri _ => rfl

/-- The end of a session keeps the balance. -/
theorem Balanced.ends {r : Round} {o : Wait.Outcome} (hs : s.Balanced)
    (hb : s.guests.length ≤ Word.maxU32) (hg : s.guests[n]? = some g) (hr : g.state = .busy r)
    (hgoes : r.Goes s.files s.depot.now s.depot.pool q (.ended o) notes) :
    (s.setGuest n q ⟨.ended o, g.marks ++ r.marks (.ended o)⟩).Balanced := by
  have hadjusts := hgoes.adjusts (hs.references_lt_of_opening hb hg hr)
  have haccounted := hs.accounted g (List.mem_of_getElem? hg)
  obtain ⟨state, marks⟩ := g
  cases hr
  cases hgoes with
  | unreadable | refused =>
    cases haccounted with
    | opening hx => exact hs.setGuest hg hadjusts .failed fun i uri _ => rfl
  | @closes s₁ o₁ =>
    cases haccounted with
    | closing =>
      exact hs.setGuest hg hadjusts .closed fun i uri hpos => count_closed hpos

/-- Whoever gives up has the document open as before: it is left open for somebody else to close, or
lost if its closing has begun. -/
theorem Balanced.givesUp {r : Round} (hs : s.Balanced) (hg : s.guests[n]? = some g)
    (hr : g.state = .busy r) :
    (s.setGuest n (r.cancel s.depot.pool) { g with state := leave s.depot.pool r }).Balanced := by
  have haccounted := hs.accounted g (List.mem_of_getElem? hg)
  obtain ⟨state, marks⟩ := g
  cases hr
  cases haccounted with
  | opening hx =>
    exact hs.setGuest hg (Pool.retains_of_eq rfl rfl) .declined fun i uri _ => rfl
  | @waiting s₁ v hx =>
    have hadjusts := Session.adjusts_drop s.depot.pool s₁
    refine hs.setGuest hg hadjusts (.leaving ?_) fun i uri _ => rfl
    rw [Round.cancel, hadjusts.leftOpen, List.getElem?_concat_length]
  | @closing s₁ o hx =>
    exact hs.setGuest hg (s.depot.pool.retains_releaseWaiter s₁.index s₁.waiter) .lost
      fun i uri _ => rfl

/-- Whoever has left a document open has it no more once it is closed. -/
theorem Balanced.tidies {k : Nat} (hs : s.Balanced) (hg : s.guests[n]? = some g)
    (hk : g.state = .leaving k) :
    (s.setGuest n (s.depot.pool.closeLeftOpen k) ⟨.gone, g.marks ++
      (s.depot.pool.leftOpen[k]?.map fun d => Mark.closed d.1 d.2).toList⟩).Balanced := by
  have haccounted := hs.accounted g (List.mem_of_getElem? hg)
  obtain ⟨state, marks⟩ := g
  cases hk
  cases haccounted with
  | @leaving _ i uri hk =>
    have hadjusts := s.depot.pool.adjusts_close i uri (f := fun x => (x.closeDocument uri).1)
      fun x => rfl
    simp only [Pool.closeLeftOpen, hk]
    exact hs.setGuest hg hadjusts .tidied fun i uri hpos => count_closed hpos

/-- Whoever comes has no document open. -/
theorem Balanced.arrives {i limit : Nat} {path languageId : String} (hs : s.Balanced)
    (hx : s.depot.pool.instance? i = some x) :
    Balanced { s with
      guests := s.guests ++ [⟨.busy (.opening ⟨i, path, languageId, limit, none⟩), []⟩] } where
  counted := hs.counted
  references i uri := by
    rw [hs.references, List.countP_append]
    rfl
  accounted g hg := by
    rcases List.mem_append.mp hg with hg | hg
    · exact hs.accounted g hg
    · rw [List.mem_singleton.mp hg]
      exact .opening ⟨x, hx⟩

/-- Every event keeps the balance. -/
theorem Balanced.happens (hs : s.Balanced) (hb : s.guests.length ≤ Word.maxU32) (hq : e.isQuiet)
    (h : s.Happens e s') : s'.Balanced := by
  cases h with
  | arrives hx => exact hs.arrives hx
  | goes hg hr hgoes => exact hs.goes hb hg hr hgoes
  | ends hg hr hgoes => exact hs.ends hb hg hr hgoes
  | givesUp hg hr => exact hs.givesUp hg hr
  | tidies hg hk => exact hs.tidies hg hk
  | edits files => exact ⟨hs.counted, hs.references, hs.accounted⟩
  | @others e d hd =>
    refine hs.retains (Depot.retains_of_act (fun i event he => ?_) hd)
    rw [he] at hq
    exact (Bool.not_eq_true' _).mp hq

theorem Balanced.run (hs : s.Balanced) (h : Run (·.isQuiet) s s')
    (hb : s'.guests.length ≤ Word.maxU32) : s'.Balanced := by
  induction h with
  | refl => exact hs
  | step _ he ha ih =>
    have hfewer := Nat.le_trans (length_le_of_act ha) hb
    exact (ih hfewer).happens hfewer he (happens_of_act ha)

/-- **References.** An instance counts the guests who have a document open, and what is marked down of
them fits how far they are. -/
theorem balanced_of_reachable (h : Reachable s) (hb : s.guests.length ≤ Word.maxU32) :
    s.Balanced := by
  obtain ⟨files, budget, roots, directory, isProcess, clientProcess, h⟩ := h
  refine Balanced.run ⟨fun i x hx => ?_, fun i uri => rfl, fun g hg => ?_⟩ h hb
  · cases hx
  · cases hg

end Gathering

end DiagnosticBroker
