import DiagnosticBroker.Proofs.Instance.Turns
import DiagnosticBroker.Proofs.Text.Numerals

/-!
# Responses and their requests

Every request has a number of its own. From the time it is queued on it waits, until a response
comes whose id names its number, the client fails it, or its time is up. `Sound` is what is true of
numbers, of requests that wait, and of responses all the time, and is kept by every turn.

Results:
* `sound_of_traced`: what is true of requests and responses all the time.
* `matched_of_traced`: a response ends no request but the one that its id names.
-/

namespace DiagnosticBroker

open Instance (Exchange Answer)

/-! ## Ids -/

/-- An id of a response names a request: it is its number, or a text that spells the number. -/
def Wire.Id.Names : Wire.Id → Nat → Prop
  | .number v, n => v = n
  | .text s, n => Numeral.Spells s n

namespace Instance

variable {i : Instance} {id : Wire.Id} {n : Nat}

theorem names_of_pendingFor? (h : i.pendingFor? id = some n) : n ∈ i.pending ∧ id.Names n := by
  cases id with
  | number v =>
    have hv : (n : Int) = v := by simpa using List.find?_some h
    exact ⟨List.mem_of_find?_eq_some h, hv.symm⟩
  | text t =>
    simp only [pendingFor?] at h
    split at h
    · rename_i k hk
      have hkn : n = k := by simpa using List.find?_some h
      exact ⟨List.mem_of_find?_eq_some h, Numeral.spells_of_readU64? (hkn ▸ hk)⟩
    · cases h

theorem pendingFor?_of_names (hn : n ∈ i.pending) (hle : n ≤ Word.maxU64) (h : id.Names n) :
    i.pendingFor? id = some n := by
  have hfind : ∀ p : Nat → Bool, (∀ k, p k = true ↔ k = n) → i.pending.find? p = some n := by
    intro p hp
    cases hf : i.pending.find? p with
    | none => exact absurd ((hp n).mpr rfl) (by simpa using List.find?_eq_none.mp hf n hn)
    | some k => rw [(hp k).mp (List.find?_some hf)]
  cases id with
  | number v => exact hfind _ fun k => by simp [show v = n from h]
  | text t =>
    simp only [pendingFor?, Numeral.readU64?_of_spells h hle]
    exact hfind _ fun k => by simp

end Instance

/-! ## Numbers -/

/-- Numbers below a bound, none of them twice. -/
structure Numbered (k : Nat) (ns : Multiset Nat) : Prop where
  nodup : ns.Nodup
  lt : ∀ n ∈ ns, n < k

/-- Some numbers are given up, or the next one is given out. -/
inductive Renumbers (k : Nat) (ns : Multiset Nat) : Nat → Multiset Nat → Prop where
  | loses {ns' : Multiset Nat} (h : ns' ≤ ns) : Renumbers k ns k ns'
  | gains : Renumbers k ns (k + 1) (k ::ₘ ns)

theorem Numbered.renumbers {k k' : Nat} {ns ns' : Multiset Nat} (h : Numbered k ns)
    (hr : Renumbers k ns k' ns') : Numbered k' ns' := by
  cases hr with
  | loses hle =>
    exact ⟨Multiset.nodup_of_le hle h.nodup, fun n hn => h.lt n (Multiset.mem_of_le hle hn)⟩
  | gains =>
    refine ⟨Multiset.nodup_cons.mpr ⟨fun hk => Nat.lt_irrefl _ (h.lt k hk), h.nodup⟩,
      fun n hn => ?_⟩
    rcases Multiset.mem_cons.mp hn with rfl | hn
    · exact Nat.lt_succ_self _
    · exact Nat.lt_succ_of_lt (h.lt n hn)

/-- Whether a request is not registered yet. -/
def Instance.Exchange.isNew (x : Exchange) : Bool :=
  match x.phase with
  | .register => true
  | _ => false

/-- The numbers of the requests that are not registered yet. -/
def unsent (xs : Multiset Exchange) : Multiset Nat := (xs.filter (·.isNew)).map (·.id)

theorem unsent_cons_of_isNew {x : Exchange} (xs : Multiset Exchange) (h : x.isNew = true) :
    unsent (x ::ₘ xs) = x.id ::ₘ unsent xs := by
  simp [unsent, h]

theorem unsent_cons_of_not_isNew {x : Exchange} (xs : Multiset Exchange) (h : x.isNew = false) :
    unsent (x ::ₘ xs) = unsent xs := by
  simp [unsent, h]

theorem unsent_le_cons (x : Exchange) (xs : Multiset Exchange) : unsent xs ≤ unsent (x ::ₘ xs) :=
  Multiset.map_le_map (Multiset.filter_le_filter _ (Multiset.le_cons_self xs x))

theorem resolved_append (m d : Mail) :
    ((m ++ d).resolved : Multiset Nat) = m.resolved + d.resolved := by
  simp only [Mail.resolved, Mail.handed_append, Mail.failed_append, List.map_append,
    ← Multiset.coe_add]
  abel

/-- An answer to a request comes, or has come. -/
def Traffic.Expects (t : Traffic) (n : Nat) : Prop :=
  n ∈ t.pending ∨ ∃ r, t.answers.lookup n = some r

/-- Whoever waits is given no worse than another answer. -/
theorem Traffic.Expects.of_append {t t' : Traffic} {n : Nat} {more : List (Nat × Wire.Response)}
    (h : t.Expects n) (ha : t'.answers = t.answers ++ more)
    (hp : n ∈ t.pending → n ∈ t'.pending ∨ ∃ r, (n, r) ∈ more) : t'.Expects n := by
  rcases h with h | ⟨r, hr⟩
  · refine (hp h).imp_right fun ⟨r, hr⟩ => ?_
    exact Assoc.exists_lookup_of_mem (ha ▸ List.mem_append_right _ hr)
  · exact .inr (Assoc.exists_lookup_of_mem
      (ha ▸ List.mem_append_left _ (Assoc.mem_of_lookup hr)))

namespace Scene

variable {P : Scene → Event → Prop} {s s' : Scene} {e : Event} {m d : Mail} {t : Traffic}
  {xs : Multiset Exchange}

/-- The numbers of the requests that somebody is at. -/
theorem renumbers_ids (h : s.Turn e d t xs) :
    Renumbers s.client.nextId (s.exchanges.map (·.id)) t.nextId (xs.map (·.id)) := by
  cases h with
  | stays | reads | ignores | hands | discards | loses | fails => exact .loses (le_refl _)
  | @begins x hl hr hx hp =>
    rw [Multiset.map_cons, hx]
    exact .gains
  | drops hs | hears hs | forgets hs =>
    rw [hs, Multiset.map_cons]
    exact .loses (Multiset.le_cons_self _ _)
  | queues hs | misses hs | expires hs =>
    rw [hs, Multiset.map_cons, Multiset.map_cons]
    exact .loses (le_refl _)

/-- A number is that of a request that is not registered yet, of one that waits, or of one that is
resolved, and of no two of them. -/
theorem renumbers_places (h : s.Turn e d t xs) (m : Mail) :
    Renumbers s.client.nextId (unsent s.exchanges + s.client.pending + m.resolved) t.nextId
      (unsent xs + t.pending + (m ++ d).resolved) := by
  have hkeeps : ∀ {ys : Multiset Exchange} {ps : List Nat} {d : Mail}, d.resolved = [] →
      unsent ys + ps ≤ unsent s.exchanges + s.client.pending →
      Renumbers s.client.nextId (unsent s.exchanges + s.client.pending + m.resolved)
        s.client.nextId (unsent ys + ps + (m ++ d).resolved) := by
    intro ys ps d hd hle
    rw [resolved_append, hd, Multiset.coe_nil, add_zero]
    exact .loses (add_le_add_left hle _)
  -- A request that is registered takes its number from the first place to the second.
  have hregisters : ∀ {x y : Exchange} {rest : Multiset Exchange}, s.exchanges = x ::ₘ rest →
      x.phase = .register → y.isNew = false →
      unsent (y ::ₘ rest) + ↑(s.client.pending ++ [x.id]) =
        unsent s.exchanges + s.client.pending := by
    intro x y rest hs hp hy
    have hx : x.isNew = true := by rw [Exchange.isNew, hp]
    rw [hs, unsent_cons_of_isNew rest hx, unsent_cons_of_not_isNew rest hy, ← Multiset.coe_add,
      Multiset.coe_singleton, ← Multiset.singleton_add]
    abel
  cases h with
  | stays | reads | ignores | discards | loses => exact hkeeps rfl (le_refl _)
  | @begins x hl hr hx hp =>
    have hnew : x.isNew = true := by rw [Exchange.isNew, hp]
    have hd : (({} : Mail).resolved : Multiset Nat) = 0 := rfl
    rw [unsent_cons_of_isNew _ hnew, hx, Multiset.cons_add, Multiset.cons_add, resolved_append, hd,
      add_zero]
    exact .gains
  | drops hs | hears hs => exact hkeeps rfl (add_le_add_left (hs ▸ unsent_le_cons _ _) _)
  | forgets hs =>
    refine hkeeps rfl (add_le_add (hs ▸ unsent_le_cons _ _) ?_)
    exact Multiset.coe_le.mpr List.erase_sublist.subperm
  | queues hs hp => exact hkeeps rfl (hregisters hs hp rfl).le
  | misses hs hp => exact hkeeps rfl (hregisters hs hp rfl).le
  | @expires x rest deadline hs hp =>
    refine hkeeps rfl (add_le_add_left (le_of_eq ?_) _)
    have hx : x.isNew = false := by rw [Exchange.isNew, hp]
    rw [hs, unsent_cons_of_not_isNew rest hx]
    exact unsent_cons_of_not_isNew rest rfl
  | @hands r id n hh hn =>
    have hmem : n ∈ (s.client.pending : Multiset Nat) := (Instance.names_of_pendingFor? hn).1
    have hsplit : (s.client.pending : Multiset Nat) =
        {n} + (s.client.pending.erase n : List Nat) := by
      rw [Multiset.singleton_add, ← Multiset.coe_erase, Multiset.cons_erase hmem]
    refine .loses (le_of_eq ?_)
    rw [resolved_append, hsplit]
    change unsent s.exchanges + (s.client.pending.erase n : List Nat) + (m.resolved + {n}) = _
    abel
  | @fails error he =>
    refine .loses (le_of_eq ?_)
    have hd : ({ failed := s.client.failures error } : Mail).resolved = s.client.pending := by
      simp [Mail.resolved, Instance.failures, Function.comp_def]
    rw [resolved_append, hd]
    change unsent s.exchanges + 0 + (m.resolved + s.client.pending) = _
    abel

/-- A number is that of a request that is not registered yet, or of a frame that was queued, and of
no two of them. -/
theorem renumbers_asked (h : s.Turn e d t xs) {ns : List Nat}
    (hns : s.client.asked.map (·.id) = ns.map fun n : Nat => .number n) :
    ∃ ns' : List Nat, (t.asked.map (·.id) = ns'.map fun n : Nat => .number n) ∧
      Renumbers s.client.nextId (unsent s.exchanges + ns) t.nextId (unsent xs + ns') := by
  cases h with
  | stays | reads | ignores | hands | discards | loses | fails =>
    exact ⟨ns, hns, .loses (le_refl _)⟩
  | @begins x hl hr hx hp =>
    have hnew : x.isNew = true := by rw [Exchange.isNew, hp]
    refine ⟨ns, hns, ?_⟩
    rw [unsent_cons_of_isNew _ hnew, hx, Multiset.cons_add]
    exact .gains
  | drops hs | hears hs | forgets hs =>
    exact ⟨ns, hns, .loses (add_le_add_left (hs ▸ unsent_le_cons _ _) _)⟩
  | @queues x rest deadline hs hp =>
    have hx : x.isNew = true := by rw [Exchange.isNew, hp]
    refine ⟨ns ++ [x.id], by simp [hns, Wire.Request.new], .loses (le_of_eq ?_)⟩
    rw [hs, unsent_cons_of_isNew rest hx, unsent_cons_of_not_isNew rest rfl, ← Multiset.coe_add,
      Multiset.coe_singleton, ← Multiset.singleton_add]
    abel
  | @misses x rest f hs hp =>
    have hx : x.isNew = true := by rw [Exchange.isNew, hp]
    refine ⟨ns, hns, .loses (add_le_add_left ?_ _)⟩
    rw [hs, unsent_cons_of_isNew rest hx, unsent_cons_of_not_isNew rest rfl]
    exact Multiset.le_cons_self _ _
  | @expires x rest deadline hs hp =>
    have hx : x.isNew = false := by rw [Exchange.isNew, hp]
    refine ⟨ns, hns, .loses (le_of_eq ?_)⟩
    rw [hs, unsent_cons_of_not_isNew rest hx, unsent_cons_of_not_isNew rest rfl]

/-! ## Requests that wait -/

/-- What is known of the requests that somebody is at, if `gone` is the fault of a lost backend. -/
structure Attended (gone : Fault) (t : Traffic) (xs : Multiset Exchange) : Prop where
  waits : ∀ x ∈ xs, ∀ deadline, x.phase = .waiting deadline → t.Expects x.id
  sent : ∀ x ∈ xs, ∀ deadline, x.phase = .waiting deadline →
    Wire.Request.new x.id x.method x.params ∈ t.asked
  missed : ∀ x ∈ xs, ∀ f, x.phase = .unregister f → f = .notConnected ∨ f = gone

variable {gone : Fault}

theorem Attended.cons {x : Exchange} (h : Attended gone t xs)
    (hw : ∀ deadline, x.phase = .waiting deadline →
      t.Expects x.id ∧ Wire.Request.new x.id x.method x.params ∈ t.asked)
    (hf : ∀ f, x.phase = .unregister f → f = .notConnected ∨ f = gone) :
    Attended gone t (x ::ₘ xs) where
  waits := Multiset.forall_mem_cons.mpr ⟨fun deadline hp => (hw deadline hp).1, h.waits⟩
  sent := Multiset.forall_mem_cons.mpr ⟨fun deadline hp => (hw deadline hp).2, h.sent⟩
  missed := Multiset.forall_mem_cons.mpr ⟨hf, h.missed⟩

/-- What is known stays known of those for whom no answer gets lost. -/
theorem Attended.keeps {t' : Traffic} {ys : Multiset Exchange} (h : Attended gone t xs)
    (hs : ∀ y ∈ ys, y ∈ xs) (hw : ∀ y ∈ ys, t.Expects y.id → t'.Expects y.id)
    (ha : ∀ r ∈ t.asked, r ∈ t'.asked) : Attended gone t' ys where
  waits y hy deadline hp := hw y hy (h.waits y (hs y hy) deadline hp)
  sent y hy deadline hp := ha _ (h.sent y (hs y hy) deadline hp)
  missed y hy := h.missed y (hs y hy)

/-- All others have other numbers. -/
theorem id_ne_of_mem {x y : Exchange} {rest : Multiset Exchange}
    (hids : (xs.map (·.id)).Nodup) (hs : xs = x ::ₘ rest) (hy : y ∈ rest) :
    y ∈ xs ∧ y.id ≠ x.id := by
  rw [hs, Multiset.map_cons, Multiset.nodup_cons] at hids
  refine ⟨hs ▸ Multiset.mem_cons_of_mem hy, fun heq => hids.1 ?_⟩
  exact heq ▸ Multiset.mem_map_of_mem (·.id) hy

theorem Attended.turn (h : Attended s.client.gone s.client.traffic s.exchanges)
    (hids : (s.exchanges.map (·.id)).Nodup) (ht : s.Turn e d t xs) :
    Attended s.client.gone t xs := by
  have hother : ∀ {x : Exchange} {rest : Multiset Exchange}, s.exchanges = x ::ₘ rest →
      ∀ y ∈ rest, y ∈ s.exchanges ∧ y.id ≠ x.id := fun hs y => id_ne_of_mem hids hs
  cases ht with
  | stays | reads | ignores | discards | loses =>
    exact h.keeps (fun _ => id) (fun _ _ => id) fun _ => id
  | @begins x _ _ _ hp =>
    have hrest : Attended s.client.gone { s.client.traffic with nextId := s.client.nextId + 1 }
        s.exchanges := h.keeps (fun _ => id) (fun _ _ => id) fun _ => id
    exact hrest.cons (by simp [hp]) (by simp [hp])
  | drops hs => exact h.keeps (fun y hy => (hother hs y hy).1) (fun _ _ => id) fun _ => id
  | @queues x rest deadline hs hp =>
    refine .cons (h.keeps (fun y hy => (hother hs y hy).1) (fun y _ hy => ?_) fun r hr => ?_)
      (fun _ _ => ⟨.inl ?_, ?_⟩) (by simp)
    · exact hy.imp_left (List.mem_append_left _)
    · exact List.mem_append_left _ hr
    · exact List.mem_append_right _ List.mem_cons_self
    · exact List.mem_append_right _ List.mem_cons_self
  | @misses x rest f hs hp _ hf =>
    refine .cons (h.keeps (fun y hy => (hother hs y hy).1) (fun y _ hy => ?_) fun _ => id)
      (by simp) (by simpa using hf)
    exact hy.imp_left (List.mem_append_left _)
  | hears hs =>
    refine h.keeps (fun y hy => (hother hs y hy).1) (fun y hy hexpects => ?_) fun _ => id
    refine hexpects.imp_right fun ⟨r, hr⟩ => ⟨r, ?_⟩
    exact (Assoc.lookup_filter_of_ne (hother hs y hy).2 _).trans hr
  | expires hs =>
    exact .cons (h.keeps (fun y hy => (hother hs y hy).1) (fun _ _ => id) fun _ => id) (by simp)
      (by simp)
  | forgets hs =>
    refine h.keeps (fun y hy => (hother hs y hy).1) (fun y hy hexpects => ?_) fun _ => id
    exact hexpects.imp_left (List.mem_erase_of_ne (hother hs y hy).2).mpr
  | @hands r name n =>
    refine h.keeps (fun _ => id) (fun y _ hy => hy.of_append rfl fun hp => ?_) fun _ => id
    by_cases hn : y.id = n
    · exact .inr ⟨r, hn ▸ List.mem_cons_self⟩
    · exact .inl ((List.mem_erase_of_ne hn).mpr hp)
  | @fails error =>
    refine h.keeps (fun _ => id) (fun y _ hy => hy.of_append rfl fun hp => .inr ?_) fun _ => id
    exact ⟨.failure (some (.number y.id)) error,
      List.mem_map_of_mem (List.mem_map_of_mem (f := fun n => (n, error)) hp)⟩

/-! ## Responses -/

/-- What is known of the responses that were read. -/
structure Posted (t : Traffic) (m : Mail) : Prop where
  answers : ∀ a ∈ t.answers, a ∈ m.handed ∨ ∃ f ∈ m.failed, Instance.failure f = a
  failed : ∀ f ∈ m.failed, (∃ text, f.2 = Instance.lostError text) ∨ f.2 = Instance.stopError
  held : ∀ id r, t.reader = .delivering id r → r.id = some id
  named : ∀ a ∈ m.handed, ∃ id, a.2.id = some id ∧ id.Names a.1
  /-- What was handed over, and what is about to be, was read, in the same order. -/
  delivered : (m.handed.map (·.2) ++ t.reader.hand?.toList).Sublist m.arrived

/-- Answers may get lost. -/
theorem Posted.keeps {t' : Traffic} (h : Posted t m) (ha : ∀ a ∈ t'.answers, a ∈ t.answers)
    (hr : t'.reader = t.reader) : Posted t' (m ++ {}) := by
  rw [Mail.append_empty]
  exact ⟨fun a ha' => h.answers a (ha a ha'), h.failed, hr ▸ h.held, h.named, hr ▸ h.delivered⟩

/-- The reader may drop what it has in hand. -/
theorem Posted.drops {r : Reading} (h : Posted t m) (hr : r.hand? = none) :
    Posted { t with reader := r } (m ++ {}) := by
  rw [Mail.append_empty]
  refine ⟨h.answers, h.failed, ?_, h.named, ?_⟩
  · rintro id w rfl
    cases hr
  · rw [hr]
    exact ((List.Sublist.refl _).append (List.nil_sublist _)).trans h.delivered

theorem Posted.turn (h : Posted s.client.traffic m) (ht : s.Turn e d t xs) : Posted t (m ++ d) := by
  have hdelivered := h.delivered
  cases ht with
  | stays | begins | drops | queues | misses | expires | forgets =>
    exact h.keeps (fun _ => id) rfl
  | hears => exact h.keeps (fun _ ha => List.mem_of_mem_filter ha) rfl
  | @reads r name hh hr =>
    have hidle : s.client.traffic.reader = .idle := hh
    rw [hidle] at hdelivered
    refine ⟨by simpa using h.answers, by simpa using h.failed, ?_, by simpa using h.named, ?_⟩
    · rintro _ _ ⟨⟩
      exact hr
    · have hfirst : (m.handed.map (·.2)).Sublist m.arrived := by
        simpa [Reading.hand?] using hdelivered
      simpa [Reading.hand?] using hfirst.append (List.Sublist.refl [r])
  | ignores =>
    refine ⟨by simpa using h.answers, by simpa using h.failed, h.held, by simpa using h.named, ?_⟩
    simpa using hdelivered.trans (List.sublist_append_left _ _)
  | @hands r name n hh hn =>
    have hheld : s.client.traffic.reader = .delivering name r := hh
    rw [hheld] at hdelivered
    refine ⟨fun a ha => ?_, by simpa using h.failed, by simp, fun a ha => ?_, by
      simpa [Reading.hand?] using hdelivered⟩
    · rcases List.mem_append.mp ha with ha | ha
      · exact (h.answers a ha).imp (List.mem_append_left _) fun ⟨f, hf, hfa⟩ =>
          ⟨f, List.mem_append_left _ hf, hfa⟩
      · exact .inl (List.mem_append_right _ ha)
    · rcases List.mem_append.mp ha with ha | ha
      · exact h.named a ha
      · rw [List.mem_singleton.mp ha]
        exact ⟨name, h.held name r hh, (Instance.names_of_pendingFor? hn).2⟩
  | discards => exact h.drops rfl
  | loses _ _ hr => exact h.drops (by rcases hr with rfl | rfl <;> rfl)
  | @fails error r he hr =>
    refine ⟨fun a ha => ?_, fun f hf => ?_, ?_, by simpa using h.named, ?_⟩
    · rcases List.mem_append.mp ha with ha | ha
      · exact (h.answers a ha).imp (List.mem_append_left _) fun ⟨f, hf, hfa⟩ =>
          ⟨f, List.mem_append_left _ hf, hfa⟩
      · obtain ⟨f, hf, hfa⟩ := List.mem_map.mp ha
        exact .inr ⟨f, List.mem_append_right _ hf, hfa⟩
    · rcases List.mem_append.mp hf with hf | hf
      · exact h.failed f hf
      · obtain ⟨n, -, rfl⟩ := List.mem_map.mp hf
        exact he.imp_right And.left
    · rcases hr with rfl | ⟨-, rfl⟩
      · exact h.held
      · simp
    · rcases hr with rfl | ⟨hr, rfl⟩
      · simpa [Instance.traffic] using hdelivered
      · have hlosing : s.client.traffic.reader = .losing := hr
        rw [hlosing] at hdelivered
        simpa [Reading.hand?] using hdelivered

/-! ## Runs -/

/-- What is true of requests and responses all the time. -/
structure Sound (s : Scene) (m : Mail) : Prop where
  ids : Numbered s.client.nextId (s.exchanges.map (·.id))
  places : Numbered s.client.nextId (unsent s.exchanges + s.client.pending + m.resolved)
  asked : ∃ ns : List Nat, (s.client.asked.map (·.id) = ns.map fun n : Nat => .number n) ∧
    Numbered s.client.nextId (unsent s.exchanges + ns)
  attended : Attended s.client.gone s.client.traffic s.exchanges
  posted : Posted s.client.traffic m

theorem Sound.act (h : s.Sound m) (hw : s.Wired) (ha : s.act e = some s') :
    s'.Sound (m ++ s.mail e) := by
  have ht := turn_of_act hw ha
  obtain ⟨ns, hns, hasked⟩ := h.asked
  obtain ⟨ns', hns', hr⟩ := renumbers_asked ht hns
  exact {
    ids := h.ids.renumbers (renumbers_ids ht)
    places := h.places.renumbers (renumbers_places ht m)
    asked := ⟨ns', hns', hasked.renumbers hr⟩
    attended := gone_of_act ha ▸ h.attended.turn h.ids.nodup ht
    posted := h.posted.turn ht }

/-- **Requests and responses.** They are in order in every run. -/
theorem sound_of_traced (h : Traced P s m) : s.Sound m := by
  induction h with
  | new backend budget roots directory launch isProcess clientProcess =>
    have hx : (new backend budget roots directory launch isProcess clientProcess).exchanges = 0 := rfl
    have hnumbered : Numbered 1 0 := ⟨Multiset.nodup_zero, by simp⟩
    refine ⟨by rw [hx]; exact hnumbered, ?_, ⟨[], rfl, ?_⟩, ?_, ?_⟩
    · rw [hx]
      exact hnumbered
    · rw [hx]
      exact hnumbered
    · rw [hx]
      exact ⟨by simp, by simp, by simp⟩
    · exact ⟨by simp [new, Instance.new, Instance.traffic], by simp, fun _ _ h => (by cases h),
        by simp, List.Sublist.refl _⟩
  | step h _ ha ih => exact ih.act (wired_of_reachable h.reachable) ha

/-! ## How requests end -/

/-- How a request may end: with what a response brought whose id names it, or with a fault of the
client's own. -/
inductive Ends (i : Instance) (m : Mail) (x : Exchange) : Answer → Prop where
  | answered {r : Wire.Response} (h : (x.id, r) ∈ m.handed) : Ends i m x (Exchange.resultOf i r)
  | gone : Ends i m x (.error i.gone)
  | notConnected : Ends i m x (.error .notConnected)
  | timedOut : Ends i m x (.error (Exchange.timedOut i x.method))
  /-- A shutdown has failed it. -/
  | stopped (h : (x.id, Instance.stopError) ∈ m.failed) :
      Ends i m x (.error (.refused Fault.cancelledCode "Backend shutdown"))

theorem ends_of_done {x : Exchange} {i : Instance} {a : Answer} (h : s.Sound m)
    (hx : x ∈ s.exchanges) (hd : x.step s.now s.client = .done i a) : Ends s.client m x a := by
  have hg := Exchange.goes_of_becomes (.of_done hd)
  cases hg with
  | unregisters hp =>
    rcases h.attended.missed x hx _ hp with rfl | rfl
    · exact .notConnected
    · exact .gone
  | hears hp hr =>
    rcases h.posted.answers _ (Assoc.mem_of_lookup hr) with hh | ⟨⟨n, error⟩, hf, hfa⟩
    · exact .answered hh
    · cases hfa
      rcases h.posted.failed _ hf with ⟨text, rfl⟩ | rfl
      · exact .gone
      · exact .stopped hf
  | givesUp => exact .timedOut

/-- Responses go to the requests that they are for, as far as a scene and its mail show. -/
structure Matched (s : Scene) (m : Mail) : Prop where
  distinct : (s.client.asked.map (·.id)).Nodup
  ends : ∀ x ∈ s.exchanges, ∀ i a, x.step s.now s.client = .done i a → Ends s.client m x a
  named : ∀ n r, (n, r) ∈ m.handed → ∃ id, r.id = some id ∧ id.Names n
  /-- No response is handed over twice, since each was read before. -/
  handed : (m.handed.map (·.2)).Sublist m.arrived
  /-- No request is handed two responses, or one and fails besides. -/
  resolved : m.resolved.Nodup
  /-- A response without an id changes nothing, and any other one nothing at first. -/
  reads : ∀ r s', s.act (.receive (.response r)) = some s' →
    s' = { s with client := r.id.elim s.client fun id => s.client.setReader 0 (.delivering id r) }
  /-- After that, a response changes nothing if its id names no request that waits. -/
  unknown : ∀ l id r s', s.client.link? 0 = some l → l.reader = .delivering id r →
    s.act .read = some s' → (∀ n ∈ s.client.pending, ¬ id.Names n) →
      s' = { s with client := s.client.setReader 0 .idle }
  known : ∀ l id r s' n, s.client.link? 0 = some l → l.reader = .delivering id r →
    s.act .read = some s' → n ∈ s.client.pending → n ≤ Word.maxU64 → id.Names n →
      s' = { s with
        client := ({ s.client with
          pending := s.client.pending.erase n
          answers := s.client.answers ++ [(n, r)] } : Instance).setReader 0 .idle }

/-- **Correspondence.** However requests, responses, timeouts, losses and shutdowns come together:
all requests that are queued have numbers of their own; a request ends with what a response brought
whose id names its number, or with a fault of the client's own; no response ends two requests, no
request is ended twice, and a response that no request waits for changes nothing. -/
theorem matched_of_traced (h : Traced P s m) : s.Matched m := by
  have hs := sound_of_traced h
  obtain ⟨ns, hns, hasked⟩ := hs.asked
  refine ⟨?_, fun x hx i a => ends_of_done hs hx, fun n r hr => hs.posted.named _ hr, ?_, ?_,
    fun r s' ha => ?_, fun l id r s' hl hr ha hn => ?_, fun l id r s' n hl hr ha hn hle hid => ?_⟩
  · have hnodup : ns.Nodup :=
      Multiset.coe_nodup.mp (Multiset.nodup_of_le (Multiset.le_add_left _ _) hasked.nodup)
    rw [hns]
    exact hnodup.map fun a b hab => by simpa using hab
  · exact (List.sublist_append_left _ _).trans hs.posted.delivered
  · exact Multiset.coe_nodup.mp
      (Multiset.nodup_of_le (Multiset.le_add_left _ _) hs.places.nodup)
  · cases happens_of_act ha with
    | receives =>
      rw [Instance.receive]
      cases r.id <;> rfl
  · rw [eq_of_read hl ha, hr, Instance.readerStep, Instance.deliver]
    cases hp : s.client.pendingFor? id with
    | none => rfl
    | some n =>
      obtain ⟨hmem, hnames⟩ := Instance.names_of_pendingFor? hp
      exact absurd hnames (hn n hmem)
  · rw [eq_of_read hl ha, hr, Instance.readerStep, Instance.deliver,
      Instance.pendingFor?_of_names hn hle hid]

/-! ## A number in disguise, and a request that a shutdown fails -/

/-- A request is made, and answered under the id `+2`. -/
def disguising : List Event :=
  readying ++ [.ask "foo" none, .exchange 0,
    .receive (.response (.success (.text "+2") (.str "resolved"))), .read]

/-- What has become of it. -/
def disguised : Scene × Mail := (sample.follow {} disguising).getD (sample, {})

theorem traced_disguised : Traced (fun _ _ => True) disguised.1 disguised.2 := by
  have hrun : sample.follow {} disguising = some (disguised.1, disguised.2) := by rfl
  exact Traced.follow (.new _ _ _ _ _ _ _) (fun _ _ _ => trivial) hrun

/-- A request is made and never answered, but a shutdown is agreed to, and fails it. -/
def forsaking : List Event :=
  readying ++ [.ask "foo" none, .exchange 0, .stop, .shutdown 0 fun _ => true,
    .shutdown 0 fun _ => true, .receive (.response (.success (.number 3) .null)), .read,
    .shutdown 0 fun _ => true, .take, .written, .take, .written, .take, .written, .take, .written,
    .take, .written, .finish, .shutdown 0 fun _ => true, .shutdown 0 fun _ => true,
    .shutdown 0 fun _ => true]

def forsaken : Scene × Mail := (sample.follow {} forsaking).getD (sample, {})

/-- The request in these runs. -/
def foo : Exchange :=
  ⟨2, "foo", none, .waiting (deadlineAfter 0 (sample.client.budget.timeoutFor "foo"))⟩

/-- Without an answer, it waits for 30 seconds. -/
theorem step_foo {i : Instance} (h : i.answers.lookup 2 = none) (now : Time) : foo.step now i =
    if 30000 ≤ now then .next i { foo with phase := .giveUp } else .blocked (some 30000) := by
  have hd : deadlineAfter 0 (sample.client.budget.timeoutFor "foo") = 30000 := by decide +kernel
  simp only [Exchange.step, foo, hd, h]

/-- The request ends with what was sent under the id `+2`. -/
theorem matched_disguised :
    foo ∈ disguised.1.exchanges ∧
      (∃ i, foo.step disguised.1.now disguised.1.client = .done i (.ok (.str "resolved"))) ∧
      Ends disguised.1.client disguised.2 foo (.ok (.str "resolved")) := by
  have hmem : foo ∈ disguised.1.exchanges := mem_exchanges_of_request (n := 0) (by rfl)
  have hstep : ∃ i, foo.step disguised.1.now disguised.1.client = .done i (.ok (.str "resolved")) :=
    ⟨_, rfl⟩
  obtain ⟨i, hi⟩ := hstep
  exact ⟨hmem, ⟨i, hi⟩, (matched_of_traced traced_disguised).ends foo hmem i _ hi⟩

/-- The answer to a request is what a response brought whose id is its number, or the decimal
numeral of it. -/
def IsOwnAnswer (s : Scene) (m : Mail) (x : Exchange) (a : Answer) : Prop :=
  ∃ r ∈ m.arrived, Exchange.resultOf s.client r = a ∧
    (r.id = some (.number x.id) ∨ r.id = some (.text (toString x.id)))

/-- A result, and an error of a backend, may be no answer under the number of the request or its
numeral. -/
theorem foreign_answers :
    (foo ∈ disguised.1.exchanges ∧
      (∃ i, foo.step disguised.1.now disguised.1.client = .done i (.ok (.str "resolved"))) ∧
      ¬ IsOwnAnswer disguised.1 disguised.2 foo (.ok (.str "resolved"))) ∧
    (foo ∈ forsaken.1.exchanges ∧
      (∃ i, foo.step forsaken.1.now forsaken.1.client =
        .done i (.error (.refused (-32800) "Backend shutdown"))) ∧
      ¬ IsOwnAnswer forsaken.1 forsaken.2 foo (.error (.refused (-32800) "Backend shutdown"))) := by
  refine ⟨⟨mem_exchanges_of_request (n := 0) (by rfl), ⟨_, rfl⟩, ?_⟩,
    ⟨mem_exchanges_of_request (n := 0) (by rfl), ⟨_, rfl⟩, ?_⟩⟩
  · have harrived : disguised.2.arrived =
        [.success (.number 1) (.obj [("capabilities", .obj [])]),
          .success (.text "+2") (.str "resolved")] := by rfl
    rintro ⟨r, hr, ha, hid⟩
    rw [harrived] at hr
    rcases List.mem_pair.mp hr with rfl | rfl
    · cases ha
    · revert hid
      decide
  · have harrived : forsaken.2.arrived =
        [.success (.number 1) (.obj [("capabilities", .obj [])]), .success (.number 3) .null] := by
      rfl
    rintro ⟨r, hr, ha, -⟩
    rw [harrived] at hr
    rcases List.mem_pair.mp hr with rfl | rfl <;> cases ha

end Scene

end DiagnosticBroker
