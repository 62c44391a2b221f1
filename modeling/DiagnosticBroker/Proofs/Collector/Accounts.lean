import DiagnosticBroker.Proofs.Collector.Revisions

/-!
# Who waits for what

The collector counts its waiters by document. `Accounts c live` says that the counts are right, if
`live` lists the waiters that were handed out and not given back: a subscription has as many waiters
as it counts, at least one, no two subscriptions share a channel, and the open channels are those of
the subscriptions. Every operation of the collector keeps the accounts.

Results:
* `accounts_register`, `accounts_release`: the accounts when waiters come and go.
* `accounts_publish`, `accounts_reject`, `accounts_disconnect`: the accounts under what backends do.
* `isClosed_release_of_mem`: giving a waiter back closes nobody else's channel.
-/

namespace DiagnosticBroker.Collector

variable {c c' : Collector} {live : List Waiter} {now : Time} {uri : String} {version : Int}
  {opened : Bool} {w w' : Waiter} {sub : Subscription}

/-- Whether a waiter waits for a document through a channel. -/
def IsWaiterOf (uri : String) (id : Nat) (w : Waiter) : Prop := w.uri = uri ∧ w.subscription = id

instance (uri : String) (id : Nat) (w : Waiter) : Decidable (IsWaiterOf uri id w) := by
  unfold IsWaiterOf
  infer_instance

/-- How many waiters wait for a document through a channel. -/
def waitersOf (live : List Waiter) (uri : String) (id : Nat) : Nat :=
  live.countP fun w => decide (IsWaiterOf uri id w)

theorem waitersOf_cons (w : Waiter) (live : List Waiter) (uri : String) (id : Nat) :
    waitersOf (w :: live) uri id =
      waitersOf live uri id + if IsWaiterOf uri id w then 1 else 0 := by
  simp [waitersOf, List.countP_cons]

theorem waitersOf_cons_of_ne (hu : uri ≠ w.uri) (live : List Waiter) (id : Nat) :
    waitersOf (w :: live) uri id = waitersOf live uri id := by
  rw [waitersOf_cons, if_neg fun hw => hu hw.1.symm, Nat.add_zero]

theorem waitersOf_pos (h : w ∈ live) : 0 < waitersOf live w.uri w.subscription := by
  rw [waitersOf, List.countP_pos_iff]
  exact ⟨w, h, by simp [IsWaiterOf]⟩

/-- The collector has it right who waits for what. -/
structure Accounts (c : Collector) (live : List Waiter) : Prop where
  counted : ∀ u s, c.subscriptions.lookup u = some s →
    s.waiters = waitersOf live u s.id ∧ 0 < s.waiters
  isOpen : ∀ u s, c.subscriptions.lookup u = some s → c.isClosed s.id = false
  distinct : ∀ u u' s s', c.subscriptions.lookup u = some s →
    c.subscriptions.lookup u' = some s' → s.id = s'.id → u = u'
  subscribed : ∀ id, c.isClosed id = false →
    ∃ u s, c.subscriptions.lookup u = some s ∧ s.id = id
  inRange : ∀ w ∈ live, w.subscription < c.channels.length
  owner : ∀ w ∈ live, ∀ u s, c.subscriptions.lookup u = some s → s.id = w.subscription →
    u = w.uri

theorem accounts_nil (c : Collector) (hs : c.subscriptions = []) (hc : c.channels = []) :
    Accounts c [] := by
  constructor
  · simp [hs]
  · simp [hs]
  · simp [hs]
  · intro id h
    have hlt := lt_of_isClosed_eq_false h
    simp [hc] at hlt
  · simp
  · simp

theorem Accounts.grounded (h : Accounts c live) : c.Grounded :=
  fun hs => lt_of_isClosed_eq_false (h.isOpen _ _ hs)

theorem Accounts.lt (h : Accounts c live) (hs : c.subscriptions.lookup uri = some sub) :
    sub.id < c.channels.length :=
  h.grounded hs

/-- The accounts do not depend on what is in the channels. -/
theorem Accounts.congr (h : Accounts c live) (hs : c'.subscriptions = c.subscriptions)
    (hc : ∀ id, c'.isClosed id = c.isClosed id)
    (hl : c'.channels.length = c.channels.length) : Accounts c' live where
  counted := by rw [hs]; exact h.counted
  isOpen := by
    rw [hs]
    intro u s hu
    rw [hc]
    exact h.isOpen u s hu
  distinct := by rw [hs]; exact h.distinct
  subscribed := by
    rw [hs]
    intro id hid
    rw [hc] at hid
    exact h.subscribed id hid
  inRange := by rw [hl]; exact h.inRange
  owner := by rw [hs]; exact h.owner

theorem Accounts.perm {live' : List Waiter} (h : Accounts c live) (hp : live.Perm live') :
    Accounts c live' where
  counted u s hu := by
    have hcount : waitersOf live' u s.id = waitersOf live u s.id := (hp.countP_eq _).symm
    rw [hcount]
    exact h.counted u s hu
  isOpen := h.isOpen
  distinct := h.distinct
  subscribed := h.subscribed
  inRange w hw := h.inRange w (hp.mem_iff.mpr hw)
  owner w hw := h.owner w (hp.mem_iff.mpr hw)

/-- A subscription may get another version and another count of waiters, if the count is right. -/
theorem Accounts.recount {live' : List Waiter} {sub' : Subscription} (h : Accounts c live)
    (hs : c.subscriptions.lookup uri = some sub)
    (hlookup : ∀ u, c'.subscriptions.lookup u =
      if u = uri then some sub' else c.subscriptions.lookup u) (hid : sub'.id = sub.id)
    (hclosed : ∀ id, c'.isClosed id = c.isClosed id)
    (hlen : c'.channels.length = c.channels.length)
    (hcount : sub'.waiters = waitersOf live' uri sub.id ∧ 0 < sub'.waiters)
    (hothers : ∀ u, u ≠ uri → ∀ id, waitersOf live' u id = waitersOf live u id)
    (hlive : ∀ x ∈ live', x ∈ live ∨ IsWaiterOf uri sub.id x) : Accounts c' live' := by
  -- Every subscription has the channel that it had.
  have hkept : ∀ u s', c'.subscriptions.lookup u = some s' →
      ∃ s₀, c.subscriptions.lookup u = some s₀ ∧ s'.id = s₀.id := by
    intro u s' hs'
    rw [hlookup] at hs'
    split at hs' <;> rename_i hu
    · cases hs'
      exact ⟨sub, by rw [hu]; exact hs, hid⟩
    · exact ⟨s', hs', rfl⟩
  constructor
  · intro u s' hs'
    rw [hlookup] at hs'
    split at hs' <;> rename_i hu
    · cases hs'
      rw [hu, hid]
      exact hcount
    · rw [hothers u hu]
      exact h.counted u s' hs'
  · intro u s' hs'
    obtain ⟨s₀, hs₀, hi⟩ := hkept u s' hs'
    rw [hclosed, hi]
    exact h.isOpen u s₀ hs₀
  · intro u u' s₁ s₂ h₁ h₂ heq
    obtain ⟨t₁, ht₁, hi₁⟩ := hkept u s₁ h₁
    obtain ⟨t₂, ht₂, hi₂⟩ := hkept u' s₂ h₂
    exact h.distinct u u' t₁ t₂ ht₁ ht₂ (by rw [← hi₁, ← hi₂, heq])
  · intro id hopen
    rw [hclosed] at hopen
    obtain ⟨u, s', hs', hi⟩ := h.subscribed id hopen
    by_cases hu : u = uri
    · subst hu
      rw [hs] at hs'
      cases hs'
      exact ⟨u, sub', by rw [hlookup, if_pos rfl], hid.trans hi⟩
    · exact ⟨u, s', by rw [hlookup, if_neg hu]; exact hs', hi⟩
  · intro x hx
    rw [hlen]
    rcases hlive x hx with hx | ⟨-, hx⟩
    · exact h.inRange x hx
    · rw [hx]
      exact h.lt hs
  · intro x hx u s' hs' heq
    obtain ⟨s₀, hs₀, hi⟩ := hkept u s' hs'
    rcases hlive x hx with hx | ⟨hxu, hxs⟩
    · exact h.owner x hx u s₀ hs₀ (by rw [← hi, heq])
    · rw [hxu]
      exact h.distinct u uri s₀ sub hs₀ hs (by rw [← hi, heq, hxs])

/-! ## Waiters come -/

theorem Accounts.joins (h : Accounts c live) (hj : Joins c now uri version opened sub c' w) :
    Accounts c' (w :: live) := by
  have hw : IsWaiterOf uri sub.id w := by
    rw [hj.waiter]
    exact ⟨rfl, rfl⟩
  have hlen : c'.channels.length = c.channels.length := by
    rw [hj.channels]
    exact List.length_modify _ _ _
  obtain ⟨hcount, -⟩ := h.counted uri sub hj.found
  refine h.recount hj.found hj.lookup rfl hj.isClosed hlen ?_ (fun u hu id => ?_) fun x hx => ?_
  · rw [waitersOf_cons, if_pos hw, ← hcount]
    exact ⟨rfl, Nat.succ_pos _⟩
  · exact waitersOf_cons_of_ne (by rw [hw.1]; exact hu) live id
  · rcases List.mem_cons.mp hx with rfl | hx
    · exact .inr hw
    · exact .inl hx

theorem Accounts.founds (h : Accounts c live) (hf : Founds c now uri version c' w) :
    Accounts c' (w :: live) := by
  have hlen : c'.channels.length = c.channels.length + 1 := by
    rw [hf.channels]
    simp
  have hold : ∀ u s, c.subscriptions.lookup u = some s → s.id ≠ c.channels.length := by
    intro u s hs heq
    exact absurd (h.lt hs) (by omega)
  constructor
  · intro u s hs
    rw [hf.lookup] at hs
    by_cases hu : u = uri
    · rw [if_pos hu] at hs
      cases hs
      have hw : IsWaiterOf u c.channels.length w := by
        rw [hf.waiter, hu]
        exact ⟨rfl, rfl⟩
      have hnone : waitersOf live u c.channels.length = 0 := by
        rw [waitersOf, List.countP_eq_zero]
        intro x hx hw
        have hlt := h.inRange x hx
        simp only [decide_eq_true_iff] at hw
        rw [hw.2] at hlt
        exact absurd hlt (by omega)
      rw [waitersOf_cons, if_pos hw, hnone]
      exact ⟨rfl, Nat.one_pos⟩
    · rw [if_neg hu] at hs
      rw [waitersOf_cons_of_ne (by rw [hf.waiter]; exact hu) live]
      exact h.counted u s hs
  · intro u s hs
    rw [hf.lookup] at hs
    rw [hf.isClosed]
    split at hs
    · cases hs
      exact if_pos rfl
    · rw [if_neg (hold u s hs)]
      exact h.isOpen u s hs
  · intro u u' s s' hs hs' heq
    rw [hf.lookup] at hs hs'
    split at hs <;> rename_i hu
    · cases hs
      split at hs' <;> rename_i hu'
      · rw [hu, hu']
      · exact absurd heq.symm (hold u' s' hs')
    · split at hs' <;> rename_i hu'
      · cases hs'
        exact absurd heq (hold u s hs)
      · exact h.distinct u u' s s' hs hs' heq
  · intro id hopen
    rw [hf.isClosed] at hopen
    split at hopen <;> rename_i hid
    · exact ⟨uri, _, by rw [hf.lookup, if_pos rfl], hid.symm⟩
    · obtain ⟨u, s, hs, hi⟩ := h.subscribed id hopen
      have hu : u ≠ uri := by
        rintro rfl
        rw [hf.missing] at hs
        cases hs
      exact ⟨u, s, by rw [hf.lookup, if_neg hu]; exact hs, hi⟩
  · intro x hx
    rw [hlen]
    rcases List.mem_cons.mp hx with rfl | hx
    · rw [hf.waiter]
      exact Nat.lt_succ_self _
    · exact Nat.lt_succ_of_lt (h.inRange x hx)
  · intro x hx u s hs heq
    rw [hf.lookup] at hs
    rcases List.mem_cons.mp hx with rfl | hx
    · rw [hf.waiter] at heq ⊢
      split at hs <;> rename_i hu
      · exact hu
      · exact absurd heq (hold u s hs)
    · split at hs <;> rename_i hu
      · cases hs
        have hlt := h.inRange x hx
        rw [← heq] at hlt
        exact absurd hlt (Nat.lt_irrefl _)
      · exact h.owner x hx u s hs heq

/-- Whoever registers looks at the snapshot that the registration starts from. -/
theorem snapshot_of_register (h : Accounts c live)
    (hr : c.register now uri version opened = (c', w)) :
    (c'.channelOf w).snapshot = c.seedFor now uri version := by
  rcases joins_or_founds hr with ⟨s, hj⟩ | hf
  · rw [hj.channelOf (h.lt hj.found), if_pos (by rw [hj.waiter])]
  · rw [hf.channelOf_self]

/-- Whoever registers looks at an open channel. -/
theorem isClosed_of_register (h : Accounts c live)
    (hr : c.register now uri version opened = (c', w)) :
    c'.isClosed w.subscription = false := by
  rcases joins_or_founds hr with ⟨s, hj⟩ | hf
  · rw [hj.isClosed, hj.waiter]
    exact h.isOpen _ _ hj.found
  · rw [hf.isClosed, if_pos (by rw [hf.waiter])]

/-- All others look at what they looked at before, or at the same snapshot. -/
theorem snapshot_register_of_mem (h : Accounts c live)
    (hr : c.register now uri version opened = (c', w)) (hw' : w' ∈ live) :
    (c'.channelOf w').snapshot = (c.channelOf w').snapshot ∨
      (c'.channelOf w').snapshot = c.seedFor now uri version := by
  rcases joins_or_founds hr with ⟨s, hj⟩ | hf
  · rw [hj.channelOf (h.lt hj.found)]
    split
    · exact .inr rfl
    · exact .inl rfl
  · rw [hf.channelOf_of_lt (h.inRange w' hw')]
    exact .inl rfl

theorem isClosed_register_of_mem (h : Accounts c live)
    (hr : c.register now uri version opened = (c', w)) (hw' : w' ∈ live) :
    c'.isClosed w'.subscription = c.isClosed w'.subscription := by
  rcases joins_or_founds hr with ⟨s, hj⟩ | hf
  · exact hj.isClosed _
  · have hlt := h.inRange w' hw'
    rw [hf.isClosed, if_neg (by omega)]

/-- A registration is entered in the accounts. -/
theorem accounts_register (h : Accounts c live)
    (hr : c.register now uri version opened = (c', w)) : Accounts c' (w :: live) := by
  rcases joins_or_founds hr with ⟨s, hj⟩ | hf
  · exact h.joins hj
  · exact h.founds hf

/-! ## Waiters go -/

/-- Whoever else has the same waiter is counted, too. -/
theorem Accounts.two_le (h : Accounts c (w :: live)) (hw' : w' ∈ live)
    (hid : w'.subscription = w.subscription)
    (hs : c.subscriptions.lookup w.uri = some sub) (hsub : sub.id = w.subscription) :
    2 ≤ sub.waiters := by
  obtain ⟨hcount, -⟩ := h.counted w.uri sub hs
  have huri : w.uri = w'.uri :=
    h.owner w' (List.mem_cons_of_mem _ hw') w.uri sub hs (by rw [hsub, hid])
  have hpos := waitersOf_pos hw'
  rw [waitersOf_cons, hsub, if_pos ⟨rfl, rfl⟩, huri, ← hid] at hcount
  omega

/-- Giving a waiter back closes nobody else's channel. -/
theorem isClosed_release_of_mem (h : Accounts c (w :: live)) (hw' : w' ∈ live) :
    (c.release w).isClosed w'.subscription = c.isClosed w'.subscription := by
  rcases release_cases c w with ⟨heq, -⟩ | ⟨s, hs, hid, ⟨hlast, hch, -, -⟩ | ⟨-, hch, -, -⟩⟩
  · rw [heq]
  · rw [isClosed_congr hch, isClosed_close]
    have hne : w'.subscription ≠ s.id := by
      intro heq
      have htwo := h.two_le hw' (heq.trans hid) hs hid
      omega
    simp [hne]
  · exact isClosed_congr hch _

/-- The last waiter of a document takes the subscription with it. -/
theorem Accounts.leavesLast (h : Accounts c (w :: live))
    (hs : c.subscriptions.lookup w.uri = some sub)
    (hch : c'.channels = (c.close sub.id).channels)
    (hlookup : ∀ u, c'.subscriptions.lookup u =
      if u = w.uri then none else c.subscriptions.lookup u) : Accounts c' live := by
  have hlen : c'.channels.length = c.channels.length := by
    rw [hch]
    exact List.length_modify _ _ _
  have hclosed : ∀ id, c'.isClosed id = (c.isClosed id || decide (id = sub.id)) := by
    intro id
    rw [isClosed_congr hch, isClosed_close]
  have hkept : ∀ u s', c'.subscriptions.lookup u = some s' →
      u ≠ w.uri ∧ c.subscriptions.lookup u = some s' := by
    intro u s' hs'
    rw [hlookup] at hs'
    split at hs'
    · cases hs'
    · rename_i hu
      exact ⟨hu, hs'⟩
  have hne : ∀ u s', u ≠ w.uri → c.subscriptions.lookup u = some s' → s'.id ≠ sub.id :=
    fun u s' hu hs' heq => hu (h.distinct u w.uri s' sub hs' hs heq)
  constructor
  · intro u s' hs'
    obtain ⟨hu, hs'⟩ := hkept u s' hs'
    rw [← waitersOf_cons_of_ne hu live]
    exact h.counted u s' hs'
  · intro u s' hs'
    obtain ⟨hu, hs'⟩ := hkept u s' hs'
    rw [hclosed, h.isOpen u s' hs', Bool.false_or]
    exact decide_eq_false (hne u s' hu hs')
  · intro u u' s₁ s₂ h₁ h₂
    exact h.distinct u u' s₁ s₂ (hkept u s₁ h₁).2 (hkept u' s₂ h₂).2
  · intro id hopen
    rw [hclosed, Bool.or_eq_false_iff] at hopen
    obtain ⟨u, s', hs', hi⟩ := h.subscribed id hopen.1
    have hu : u ≠ w.uri := by
      rintro rfl
      rw [hs] at hs'
      cases hs'
      exact of_decide_eq_false hopen.2 hi.symm
    exact ⟨u, s', by rw [hlookup, if_neg hu]; exact hs', hi⟩
  · intro x hx
    rw [hlen]
    exact h.inRange x (List.mem_cons_of_mem _ hx)
  · intro x hx u s' hs'
    exact h.owner x (List.mem_cons_of_mem _ hx) u s' (hkept u s' hs').2

/-- Any other waiter only leaves the count. -/
theorem Accounts.leavesOne (h : Accounts c (w :: live))
    (hs : c.subscriptions.lookup w.uri = some sub) (hid : sub.id = w.subscription)
    (hlt : 1 < sub.waiters) (hch : c'.channels = c.channels)
    (hlookup : ∀ u, c'.subscriptions.lookup u =
      if u = w.uri then some { sub with waiters := sub.waiters - 1 }
      else c.subscriptions.lookup u) : Accounts c' live := by
  have hw : IsWaiterOf w.uri sub.id w := ⟨rfl, hid.symm⟩
  obtain ⟨hcount, -⟩ := h.counted w.uri sub hs
  rw [waitersOf_cons, if_pos hw] at hcount
  refine h.recount hs hlookup rfl (fun id => isClosed_congr hch id) (by rw [hch]) ?_
    (fun u hu id => ?_) fun x hx => ?_
  · exact ⟨by simp only; omega, by simp only; omega⟩
  · exact (waitersOf_cons_of_ne hu live id).symm
  · exact .inl (List.mem_cons_of_mem _ hx)

/-- A waiter that is given back leaves the accounts. -/
theorem accounts_release (h : Accounts c (w :: live)) : Accounts (c.release w) live := by
  rcases release_cases c w with ⟨heq, hother⟩ |
    ⟨s, hs, hid, ⟨-, hch, -, hlookup⟩ | ⟨hlt, hch, -, hlookup⟩⟩
  · rw [heq]
    refine ⟨fun u s hs => ?_, h.isOpen, h.distinct, h.subscribed,
      fun x hx => h.inRange x (List.mem_cons_of_mem _ hx),
      fun x hx => h.owner x (List.mem_cons_of_mem _ hx)⟩
    obtain ⟨hcount, hpos⟩ := h.counted u s hs
    have hw : ¬ IsWaiterOf u s.id w := by
      rintro ⟨rfl, hsid⟩
      exact hother s hs hsid.symm
    rw [waitersOf_cons, if_neg hw, Nat.add_zero] at hcount
    exact ⟨hcount, hpos⟩
  · exact h.leavesLast hs hch hlookup
  · exact h.leavesOne hs hid hlt hch hlookup

/-! ## What backends do -/

theorem Accounts.thins (h : Accounts c live) (ht : Thins c c') : Accounts c' live :=
  h.congr ht.subscriptions (fun id => isClosed_congr ht.channels id) (by rw [ht.channels])

theorem Accounts.send (h : Accounts c live) (id : Nat) (x : Snapshot) :
    Accounts (c.send id x) live :=
  h.congr rfl (fun n => isClosed_send c id x n) (List.length_modify _ _ _)

theorem accounts_publish (h : Accounts c live) (now : Time) (p : Wire.Publish) :
    Accounts (c.publish now p) live := by
  rcases publish_cases c now p with ⟨s, -, ⟨-, heq⟩ | ⟨-, heq⟩⟩ | ⟨-, heq⟩
  · rw [heq]
    exact h
  · rw [heq]
    exact h.send _ _
  · have ht := h.thins (thins_withRoom c now (c.subject p))
    rw [heq]
    exact ht.congr rfl (fun _ => rfl) rfl

theorem accounts_reject (h : Accounts c live) (uri : String) (version : Option Int)
    (reason : String) : Accounts (c.reject uri version reason).1 live := by
  obtain ⟨c', ht, heq | ⟨s, -, -, heq⟩⟩ := reject_cases c uri version reason
  · rw [heq]
    exact h.thins ht
  · rw [heq]
    exact (h.thins ht).send _ _

/-- When the backend is gone, all channels are closed. -/
theorem isClosed_disconnect_of_accounts (h : Accounts c live) (id : Nat) :
    c.disconnect.isClosed id = true := by
  rw [isClosed_disconnect]
  cases hid : c.isClosed id with
  | true => rfl
  | false =>
    obtain ⟨u, s, hs, hi⟩ := h.subscribed id hid
    rw [Bool.false_or, List.any_eq_true]
    exact ⟨(u, s), Assoc.mem_of_lookup hs, by simp [hi]⟩

theorem accounts_disconnect (h : Accounts c live) : Accounts c.disconnect live := by
  constructor
  · simp [subscriptions_disconnect]
  · simp [subscriptions_disconnect]
  · simp [subscriptions_disconnect]
  · intro id hopen
    rw [isClosed_disconnect_of_accounts h] at hopen
    cases hopen
  · intro w hw
    rw [length_disconnect]
    exact h.inRange w hw
  · simp [subscriptions_disconnect]

end DiagnosticBroker.Collector
