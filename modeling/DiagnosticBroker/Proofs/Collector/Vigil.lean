import DiagnosticBroker.Proofs.Collector.Desk
import DiagnosticBroker.Proofs.Collector.Revisions

/-!
# What a wait comes to

A `Vigil` is a desk on which one waiter is looked at. Its wait looks at once when it can: time passes
only while the wait is blocked, and no further than it is blocked (`Vigil.Run`). Meanwhile anything
else may happen at the desk, in any order, except that the waiter is not given back and the wait not
given up.

`Vigil.Sound` is the invariant. It says in each phase what the deadline is, and that the time is not
past it.

Results:
* `Sound.run`: every turn keeps it.
* `looks_of_run`: how often the wait can look.
* `returns_alone`: the wait returns when nothing else happens.
* `returned_of_run`: when it returns, and with what.
-/

namespace DiagnosticBroker

/-! ## Steps in time -/

namespace Wait

variable {now : Time} {c c' : Collector} {w w' : Wait} {r : Outcome}

/-- What a wait is blocked to is the end of its phase. -/
theorem phase_of_blocked {u? : Option Time} (h : w.step now c = .blocked u?) :
    ∃ u, u? = some u ∧ now < u ∧ (c.channelOf w.waiter).closed = false ∧
      ((w.phase = .snapshot u ∧ (c.channelOf w.waiter).snapshot.isPending = true) ∨
        ∃ deadline, w.phase = .quiet deadline u (c.channelOf w.waiter).revision) := by
  cases hp : w.phase with
  | begin =>
    rw [step, hp] at h
    cases h
  | snapshot deadline =>
    simp only [step, hp] at h
    split_ifs at h with hs hz hc hd
    cases h
    exact ⟨deadline, rfl, Nat.lt_of_not_le hd, Bool.eq_false_iff.mpr hc,
      .inl ⟨rfl, by simpa using hs⟩⟩
  | quiet deadline quietUntil seen =>
    simp only [step, hp] at h
    split_ifs at h with hr hc hq
    cases h
    rw [ne_eq, not_not] at hr
    exact ⟨quietUntil, rfl, Nat.lt_of_not_le hq, Bool.eq_false_iff.mpr hc, .inr ⟨deadline, by rw [hr]⟩⟩

/-- When the time comes that it is blocked to, a wait is over. -/
theorem done_of_blocked {u : Time} (h : w.step now c = .blocked (some u)) :
    ∃ r, w.step u c = .done c r := by
  obtain ⟨_, hu, -, hc, ⟨hp, hs⟩ | ⟨deadline, hp⟩⟩ := phase_of_blocked h <;> cases hu
  · refine ⟨.error w.timedOut, ?_⟩
    simp only [step, hp, hs, hc, Bool.not_true, Bool.false_eq_true, if_false, Nat.le_refl, if_true]
  · refine ⟨outcomeOf w.waiter.uri (c.channelOf w.waiter).snapshot, ?_⟩
    simp only [step, hp, hc, ne_eq, not_true_eq_false, Bool.false_eq_true, if_false, Nat.le_refl,
      if_true]

/-- Why a wait is over: it is not connected; its time is up, with nothing there; or something is
there, and nobody asked for a quiet period, or it has passed. -/
theorem reason_of_done (hh : w.Heeds c) (h : w.step now c = .done c' r) :
    (r = .error .notConnected ∧ (c.channelOf w.waiter).closed = true) ∨
    (r = .error w.timedOut ∧ (c.channelOf w.waiter).snapshot.isPending = true ∧
      ∃ deadline, w.phase = .snapshot deadline ∧ deadline ≤ now) ∨
    (r = outcomeOf w.waiter.uri (c.channelOf w.waiter).snapshot ∧
      (c.channelOf w.waiter).snapshot.isPending = false ∧
      (w.settle = .zero ∨ ∃ deadline quietUntil,
        w.phase = .quiet deadline quietUntil (c.channelOf w.waiter).revision ∧
          quietUntil ≤ now)) := by
  have hsteps := steps now c w
  rw [h] at hsteps
  cases hsteps with
  | taken hp hs =>
    refine .inr (.inr ⟨rfl, hs, .inl ?_⟩)
    by_contra hz
    simp only [step, hp, hs, Bool.not_false, if_true, if_neg hz, reduceCtorEq] at h
  | gone _ _ hc => exact .inl ⟨rfl, hc⟩
  | late hp hs _ hd => exact .inr (.inl ⟨rfl, hs, _, hp, hd⟩)
  | cutOff _ _ hc => exact .inl ⟨rfl, hc⟩
  | settled hp hr _ hq =>
    subst hr
    exact .inr (.inr ⟨rfl, (hh _ _ _ hp).2 rfl, .inr ⟨_, _, hp, hq⟩⟩)

/-- How many looks a wait has left if nothing is replaced. -/
def looksLeft (c : Collector) (w : Wait) : Nat :=
  match w.phase with
  | .begin => 2
  | .snapshot _ => 1
  | .quiet _ _ seen => if (c.channelOf w.waiter).revision = seen then 0 else 2

theorem looksLeft_of_next (h : w.step now c = .next c' w') : w'.looksLeft c < w.looksLeft c := by
  have hsteps := steps now c w
  rw [h] at hsteps
  cases hsteps with
  | begins hp => simp only [looksLeft, hp, Nat.lt_succ_self]
  | seen hp => simp only [looksLeft, hp, if_true, Nat.lt_succ_self]
  | replaced hp hr => simp only [looksLeft, hp, if_neg hr, Nat.lt_succ_self]

theorem looksLeft_le (c c' : Collector) (w : Wait) : w.looksLeft c' ≤ w.looksLeft c + 2 := by
  unfold looksLeft
  split
  · exact Nat.le_add_right _ _
  · exact Nat.le_add_right _ _
  · split_ifs <;> omega

end Wait

/-! ## What others do -/

namespace Desk

variable {s t : Desk} {e : Event} {n : Nat} {h : Handle}

/-- An event takes no time, and does not concern the waiter at a place. -/
def Event.Spares (n : Nat) : Event → Prop
  | .elapse _ => False
  | .drop m => m ≠ n
  | .wait m _ _ => m ≠ n
  | .look m => m ≠ n
  | .turnAway m => m ≠ n
  | _ => True

/-- The place that a waiter has after an event. -/
def Event.placeAfter (n : Nat) : Event → Nat
  | .drop m => if m < n then n - 1 else n
  | _ => n

theorem getElem?_setWait_of_ne {m : Nat} (hm : m ≠ n) (x : Handle) (wait? : Option Wait) :
    (s.setWait m x wait?).handles[n]? = s.handles[n]? := List.getElem?_set_ne hm

theorem getElem?_setWait_self (hn : s.handles[n]? = some h) (wait? : Option Wait) :
    (s.setWait n h wait?).handles[n]? = some { h with wait? := wait? } :=
  List.getElem?_set_self (List.getElem?_eq_some_iff.mp hn).1

/-- Whom an event does not concern keeps the waiter. -/
theorem getElem?_of_spares (he : e.Spares n) (ha : s.act e = some t)
    (hn : s.handles[n]? = some h) : t.handles[e.placeAfter n]? = some h := by
  cases e with
  | elapse => exact he.elim
  | register uri version opened =>
    cases ha
    exact (List.getElem?_append_left (List.getElem?_eq_some_iff.mp hn).1).trans hn
  | publish | reject | disconnect =>
    cases ha
    exact hn
  | drop m =>
    obtain ⟨x, -, rfl⟩ := Option.map_eq_some_iff.mp ha
    have hm : m ≠ n := he
    rw [Event.placeAfter, List.getElem?_eraseIdx]
    split_ifs with hlt h₁ h₁
    · omega
    · rwa [Nat.sub_add_cancel (by omega)]
    · exact hn
    · omega
  | wait m timeout settle =>
    obtain ⟨x, -, ha⟩ := Option.bind_eq_some_iff.mp ha
    split at ha <;> cases ha
    exact (getElem?_setWait_of_ne he x _).trans hn
  | look m =>
    obtain ⟨x, -, ha⟩ := Option.bind_eq_some_iff.mp ha
    obtain ⟨w, -, ha⟩ := Option.bind_eq_some_iff.mp ha
    split at ha <;> cases ha <;> exact (getElem?_setWait_of_ne he x _).trans hn
  | turnAway m =>
    obtain ⟨x, -, rfl⟩ := Option.map_eq_some_iff.mp ha
    exact (getElem?_setWait_of_ne he x _).trans hn

theorem now_of_spares (he : e.Spares n) (ha : s.act e = some t) : t.now = s.now := by
  cases e with
  | elapse => exact he.elim
  | register | publish | reject | disconnect =>
    cases ha
    rfl
  | drop m =>
    obtain ⟨x, -, rfl⟩ := Option.map_eq_some_iff.mp ha
    rfl
  | wait m timeout settle =>
    obtain ⟨x, -, ha⟩ := Option.bind_eq_some_iff.mp ha
    split at ha <;> cases ha
    rfl
  | look m =>
    obtain ⟨x, -, ha⟩ := Option.bind_eq_some_iff.mp ha
    obtain ⟨w, -, ha⟩ := Option.bind_eq_some_iff.mp ha
    split at ha <;> cases ha <;> rfl
  | turnAway m =>
    obtain ⟨x, -, rfl⟩ := Option.map_eq_some_iff.mp ha
    rfl

/-- No event loses a channel, or a replacement. -/
theorem tracks_of_act (hb : s.Balanced) (ha : s.act e = some t) :
    s.collector.Tracks t.collector := by
  have hg : s.collector.Grounded := hb.accounts.grounded
  cases e with
  | elapse d =>
    cases ha
    exact .refl hg
  | register uri version opened =>
    cases ha
    exact (Collector.tracks_register hg rfl).1
  | publish p =>
    cases ha
    exact Collector.tracks_publish hg _ p
  | reject uri version reason =>
    cases ha
    exact Collector.tracks_reject hg uri version reason
  | disconnect =>
    cases ha
    exact Collector.tracks_disconnect _
  | drop n =>
    obtain ⟨h, -, rfl⟩ := Option.map_eq_some_iff.mp ha
    exact Collector.tracks_release hg h.waiter
  | wait n timeout settle =>
    obtain ⟨h, -, ha⟩ := Option.bind_eq_some_iff.mp ha
    split at ha <;> cases ha
    exact .refl hg
  | look n =>
    obtain ⟨h, -, ha⟩ := Option.bind_eq_some_iff.mp ha
    obtain ⟨w, -, ha⟩ := Option.bind_eq_some_iff.mp ha
    split at ha <;> cases ha <;> exact .refl hg
  | turnAway n =>
    obtain ⟨h, -, rfl⟩ := Option.map_eq_some_iff.mp ha
    exact .refl hg

end Desk

/-! ## Vigils -/

/-- A desk, and the place of the waiter that is looked at. -/
structure Vigil where
  desk : Desk
  place : Nat

namespace Vigil

variable {v v' u : Vigil} {h : Handle} {w : Wait} {r : Wait.Outcome} {looks others : Nat}

def now (v : Vigil) : Time := v.desk.now

def handle? (v : Vigil) : Option Handle := v.desk.handles[v.place]?

/-- The wait that is under way. -/
def wait? (v : Vigil) : Option Wait := v.handle?.bind (·.wait?)

/-- What the wait sees. -/
def channel (v : Vigil) (x : Waiter) : Channel := v.desk.collector.channelOf x

/-- The wait, after time has passed. -/
def elapse (v : Vigil) (d : Nat) : Vigil := { v with desk := { v.desk with now := v.desk.now + d } }

/-- A wait that is under way, from one state of the desk to a later one: how often it has looked, and
how many other things have happened. Time passes only as far as the wait is blocked. -/
inductive Run (v : Vigil) : Nat → Nat → Vigil → Prop where
  | refl : Run v 0 0 v
  | elapse {looks others d : Nat} {v' : Vigil} {w : Wait} {t : Time} (hr : Run v looks others v')
      (hw : v'.wait? = some w)
      (hb : w.step v'.now v'.desk.collector = .blocked (some t)) (hd : v'.now + d ≤ t) :
      Run v looks others (v'.elapse d)
  | other {looks others : Nat} {v' : Vigil} {e : Desk.Event} {s : Desk} (hr : Run v looks others v')
      (he : e.Spares v'.place) (ha : v'.desk.act e = some s) :
      Run v looks (others + 1) ⟨s, e.placeAfter v'.place⟩
  | look {looks others : Nat} {v' : Vigil} {w w' : Wait} {c : Collector} {s : Desk}
      (hr : Run v looks others v') (hw : v'.wait? = some w)
      (hn : w.step v'.now v'.desk.collector = .next c w')
      (ha : v'.desk.act (.look v'.place) = some s) : Run v (looks + 1) others ⟨s, v'.place⟩

/-- The wait returns here. -/
def Returns (v : Vigil) (r : Wait.Outcome) : Prop :=
  ∃ w c, v.wait? = some w ∧ w.step v.now v.desk.collector = .done c r

/-- What a wait was asked for. -/
structure Terms where
  waiter : Waiter
  timeout : Duration
  settle : Duration
  /-- When it began. -/
  begun : Time

/-- The time at which it is too late. -/
def Terms.deadline (p : Terms) : Time := deadlineAfter p.begun p.timeout

/-- The wait as it begins. -/
def Terms.wait (p : Terms) : Wait := ⟨p.waiter, p.timeout, p.settle, .begin⟩

/-! ## The invariant -/

/-- A wait is on time: its deadline is the one that it was given, and not past. -/
def Terms.OnTime (p : Terms) (now : Time) : Wait.Phase → Prop
  | .begin => now = p.begun
  | .snapshot deadline => deadline = p.deadline
  | .quiet deadline quietUntil _ => deadline = p.deadline ∧ quietUntil ≤ p.deadline

/-- A wait is the one that was asked for, and nothing has escaped it. -/
structure Terms.Fits (p : Terms) (v : Vigil) (w : Wait) : Prop where
  waiter : w.waiter = p.waiter
  timeout : w.timeout = p.timeout
  settle : w.settle = p.settle
  onTime : p.OnTime v.now w.phase
  heeds : w.Heeds v.desk.collector

/-- What holds while the wait is under way. -/
structure Sound (p : Terms) (v : Vigil) : Prop where
  balanced : v.desk.Balanced
  now_le : v.now ≤ p.deadline
  waits : ∃ h w, v.handle? = some h ∧ h.wait? = some w ∧ p.Fits v w

variable {p : Terms}

theorem wait?_of_handle? (hh : v.handle? = some h) : v.wait? = h.wait? := by
  rw [wait?, hh, Option.bind_some]

theorem handle?_of_wait? (hw : v.wait? = some w) : ∃ h, v.handle? = some h ∧ h.wait? = some w :=
  Option.bind_eq_some_iff.mp hw

theorem Sound.fits (hs : v.Sound p) (hw : v.wait? = some w) : p.Fits v w := by
  obtain ⟨h, w', hh, hw', hf⟩ := hs.waits
  rw [wait?_of_handle? hh, hw'] at hw
  cases hw
  exact hf

/-- The channel that the wait looks at is there. -/
theorem Sound.inRange (hs : v.Sound p) :
    p.waiter.subscription < v.desk.collector.channels.length := by
  obtain ⟨h, w, hh, hw, hf⟩ := hs.waits
  have hmem : h ∈ v.desk.handles := List.mem_of_getElem? hh
  rw [← hf.waiter, hs.balanced.waiting h hmem w hw]
  exact hs.balanced.accounts.inRange _ (Desk.mem_waiters hmem)

theorem le_deadlineAfter (now : Time) (d : Duration) : now ≤ deadlineAfter now d :=
  Nat.le_add_right _ _

theorem deadlineAfter_mono {t t' : Time} (h : t ≤ t') (d : Duration) :
    deadlineAfter t d ≤ deadlineAfter t' d := Nat.add_le_add_right h _

theorem sound_begin (hb : v.desk.Balanced) (hw : v.wait? = some p.wait) (hn : v.now = p.begun) :
    v.Sound p := by
  obtain ⟨h, hh, hw⟩ := handle?_of_wait? hw
  exact ⟨hb, hn ▸ le_deadlineAfter _ _, h, p.wait, hh, hw, rfl, rfl, rfl, hn,
    Wait.heeds_of_begin rfl⟩

/-- A wait that is blocked is so until some later time, and not past its deadline. -/
theorem Terms.Fits.until_le (hf : p.Fits v w) {t? : Option Time}
    (hb : w.step v.now v.desk.collector = .blocked t?) :
    ∃ t, t? = some t ∧ v.now < t ∧ t ≤ p.deadline := by
  have hon := hf.onTime
  obtain ⟨t, rfl, hlt, -, ⟨hp, -⟩ | ⟨deadline, hp⟩⟩ := Wait.phase_of_blocked hb <;> rw [hp] at hon
  · exact ⟨t, rfl, hlt, Nat.le_of_eq hon⟩
  · exact ⟨t, rfl, hlt, hon.2⟩

theorem Sound.elapse (hs : v.Sound p) (hw : v.wait? = some w) {t : Time} {d : Nat}
    (hb : w.step v.now v.desk.collector = .blocked (some t)) (hd : v.now + d ≤ t) :
    (v.elapse d).Sound p := by
  have hf := hs.fits hw
  obtain ⟨h, hh, hw⟩ := handle?_of_wait? hw
  obtain ⟨_, ht, -, hle⟩ := hf.until_le hb
  cases ht
  refine ⟨Desk.balanced_of_act (e := .elapse d) hs.balanced rfl, Nat.le_trans hd hle, h, w, hh, hw,
    hf.waiter, hf.timeout, hf.settle, ?_, hf.heeds⟩
  have hon := hf.onTime
  obtain ⟨_, -, -, -, ⟨hp, -⟩ | ⟨deadline, hp⟩⟩ := Wait.phase_of_blocked hb <;> rw [hp] at hon ⊢ <;>
    exact hon

theorem Sound.other (hs : v.Sound p) {e : Desk.Event} {s : Desk} (he : e.Spares v.place)
    (ha : v.desk.act e = some s) : Sound p ⟨s, e.placeAfter v.place⟩ := by
  obtain ⟨h, w, hh, hw, hf⟩ := hs.waits
  have hnow : s.now = v.desk.now := Desk.now_of_spares he ha
  have hrange : w.waiter.subscription < v.desk.collector.channels.length := hf.waiter ▸ hs.inRange
  refine ⟨Desk.balanced_of_act hs.balanced ha, ?_, h, w, Desk.getElem?_of_spares he ha hh, hw,
    hf.waiter, hf.timeout, hf.settle, ?_,
    hf.heeds.tracks (Desk.tracks_of_act hs.balanced ha) hrange⟩
  · exact Nat.le_trans (Nat.le_of_eq hnow) hs.now_le
  · have hon := hf.onTime
    unfold now at hon ⊢
    rwa [hnow]

/-- What a look leads to. -/
theorem desk_of_look (hw : v.wait? = some w) {c : Collector} {w' : Wait} {s : Desk}
    (hn : w.step v.now v.desk.collector = .next c w')
    (ha : v.desk.act (.look v.place) = some s) :
    ∃ h, v.handle? = some h ∧ s = v.desk.setWait v.place h (some w') := by
  obtain ⟨h, hh, hw⟩ := handle?_of_wait? hw
  obtain ⟨h', hh', ha⟩ := Option.bind_eq_some_iff.mp ha
  cases hh.symm.trans hh'
  obtain ⟨_, hw', ha⟩ := Option.bind_eq_some_iff.mp ha
  cases hw.symm.trans hw'
  unfold now at hn
  simp only [hn] at ha
  exact ⟨h, hh, (Option.some.inj ha).symm⟩

theorem Terms.Fits.next (hf : p.Fits v w) {c : Collector} {w' : Wait}
    (hn : w.step v.now v.desk.collector = .next c w') :
    w'.waiter = p.waiter ∧ w'.timeout = p.timeout ∧ w'.settle = p.settle ∧
      p.OnTime v.now w'.phase := by
  have hon := hf.onTime
  have hsteps := Wait.steps v.now v.desk.collector w
  rw [hn] at hsteps
  cases hsteps with
  | begins hp =>
    rw [hp] at hon
    refine ⟨hf.waiter, hf.timeout, hf.settle, ?_⟩
    change deadlineAfter v.now w.timeout = p.deadline
    rw [hon, hf.timeout, Terms.deadline]
  | seen hp =>
    rw [hp] at hon
    exact ⟨hf.waiter, hf.timeout, hf.settle, hon, hon ▸ Nat.min_le_right _ _⟩
  | replaced hp =>
    rw [hp] at hon
    exact ⟨hf.waiter, hf.timeout, hf.settle, hon.1⟩

theorem Sound.look (hs : v.Sound p) (hw : v.wait? = some w) {c : Collector} {w' : Wait} {s : Desk}
    (hn : w.step v.now v.desk.collector = .next c w')
    (ha : v.desk.act (.look v.place) = some s) :
    Sound p ⟨s, v.place⟩ ∧ wait? ⟨s, v.place⟩ = some w' ∧ s.collector = v.desk.collector ∧
      s.now = v.now := by
  obtain ⟨h, hh, rfl⟩ := desk_of_look hw hn ha
  obtain ⟨hwaiter, htimeout, hsettle, hon⟩ := (hs.fits hw).next hn
  have hh' : handle? ⟨v.desk.setWait v.place h (some w'), v.place⟩ =
      some { h with wait? := some w' } := Desk.getElem?_setWait_self hh _
  obtain rfl := Wait.eq_of_next hn
  exact ⟨⟨Desk.balanced_of_act hs.balanced ha, hs.now_le, _, w', hh', rfl, hwaiter, htimeout,
    hsettle, hon, Wait.heeds_of_next hn⟩, wait?_of_handle? hh', rfl, rfl⟩

/-- Every turn keeps the invariant. -/
theorem Sound.run (hs : v.Sound p) (hr : v.Run looks others v') : v'.Sound p := by
  induction hr with
  | refl => exact hs
  | elapse _ hw hb hd ih => exact ih.elapse hw hb hd
  | other _ he ha ih => exact ih.other he ha
  | look _ hw hn ha ih => exact (ih.look hw hn ha).1

/-! ## It comes to an end -/

theorem wait?_of_spares {e : Desk.Event} {s : Desk} (hw : v.wait? = some w) (he : e.Spares v.place)
    (ha : v.desk.act e = some s) : wait? ⟨s, e.placeAfter v.place⟩ = some w := by
  obtain ⟨h, hh, hw⟩ := handle?_of_wait? hw
  have hh' : handle? ⟨s, e.placeAfter v.place⟩ = some h := Desk.getElem?_of_spares he ha hh
  rw [wait?_of_handle? hh', hw]

/-- Every look leaves fewer to come, and what others do leaves at most two more. -/
theorem looks_of_run (hs : v.Sound p) (hr : v.Run looks others v') {w w' : Wait}
    (hw : v.wait? = some w) (hw' : v'.wait? = some w') :
    looks + w'.looksLeft v'.desk.collector ≤ w.looksLeft v.desk.collector + 2 * others := by
  induction hr generalizing w' with
  | refl =>
    cases hw.symm.trans hw'
    omega
  | elapse _ _ _ _ ih => exact ih hw'
  | @other looks others u e s hr he ha ih =>
    obtain ⟨h, x, hh, hx, -⟩ := (hs.run hr).waits
    have hux : u.wait? = some x := (wait?_of_handle? hh).trans hx
    obtain rfl : x = w' := Option.some.inj ((wait?_of_spares hux he ha).symm.trans hw')
    have hbefore := ih hux
    have hmore := Wait.looksLeft_le u.desk.collector s.collector x
    change looks + x.looksLeft s.collector ≤ _
    omega
  | @look looks others u x x' c s hr hx hn ha ih =>
    obtain ⟨-, hx', hc, -⟩ := (hs.run hr).look hx hn ha
    cases hx'.symm.trans hw'
    have hbefore := ih hx
    have hless := Wait.looksLeft_of_next hn
    change looks + 1 + x'.looksLeft s.collector ≤ _
    rw [hc]
    omega

theorem Run.trans {looks' others' : Nat} (h : v.Run looks others v') (h' : v'.Run looks' others' u) :
    v.Run (looks + looks') (others + others') u := by
  induction h' with
  | refl => exact h
  | elapse _ hw hb hd ih => exact .elapse ih hw hb hd
  | other _ he ha ih => exact .other ih he ha
  | look _ hw hn ha ih => exact .look ih hw hn ha

/-- A wait that goes on can look. -/
theorem exists_look (hw : v.wait? = some w) {c : Collector} {w' : Wait}
    (hn : w.step v.now v.desk.collector = .next c w') : ∃ s, v.desk.act (.look v.place) = some s := by
  obtain ⟨h, hh, hw⟩ := handle?_of_wait? hw
  unfold handle? at hh
  unfold now at hn
  exact ⟨v.desk.setWait v.place h (some w'),
    by simp only [Desk.act, hh, hw, hn, Option.bind_eq_bind, Option.bind_some]⟩

/-- The wait returns when nothing else happens. -/
theorem returns_alone (hs : v.Sound p) (hw : v.wait? = some w) :
    ∃ looks u r, v.Run looks 0 u ∧ u.Returns r := by
  induction hn : w.looksLeft v.desk.collector using Nat.strongRecOn generalizing v w with
  | ind n ih =>
    subst hn
    cases hstep : w.step v.now v.desk.collector with
    | done c r => exact ⟨0, v, r, .refl, w, c, hw, hstep⟩
    | later c w' => exact (Wait.step_ne_later hstep).elim
    | blocked t? =>
      obtain ⟨t, rfl, hlt, -⟩ := (hs.fits hw).until_le hstep
      obtain ⟨r, hr⟩ := Wait.done_of_blocked hstep
      have hnow : v.now + (t - v.now) = t := Nat.add_sub_of_le (Nat.le_of_lt hlt)
      have hdone : w.step (v.elapse (t - v.now)).now v.desk.collector = .done v.desk.collector r := by
        change w.step (v.now + (t - v.now)) v.desk.collector = _
        rw [hnow]
        exact hr
      exact ⟨0, v.elapse (t - v.now), r, .elapse .refl hw hstep (Nat.le_of_eq hnow), w, _, hw, hdone⟩
    | next c w' =>
      obtain ⟨s, ha⟩ := exists_look hw hstep
      obtain ⟨hs', hw', hc, -⟩ := hs.look hw hstep ha
      obtain rfl := Wait.eq_of_next hstep
      have hless : w'.looksLeft s.collector < w.looksLeft v.desk.collector := by
        rw [hc]
        exact Wait.looksLeft_of_next hstep
      obtain ⟨looks, u, r, hr, hret⟩ := ih _ hless hs' hw' rfl
      exact ⟨0 + 1 + looks, u, r, Run.trans (.look .refl hw hstep ha) hr, hret⟩

/-! ## What was there meanwhile -/

/-- No time goes back, and no replacement is forgotten. -/
theorem tracks_of_run (hs : v.Sound p) (hr : v.Run looks others v') :
    v.now ≤ v'.now ∧ v.desk.collector.Tracks v'.desk.collector := by
  induction hr with
  | refl => exact ⟨Nat.le_refl _, .refl hs.balanced.accounts.grounded⟩
  | elapse _ _ _ _ ih => exact ⟨Nat.le_trans ih.1 (Nat.le_add_right _ _), ih.2⟩
  | other hr he ha ih =>
    have hnow := Desk.now_of_spares he ha
    exact ⟨Nat.le_trans ih.1 (Nat.le_of_eq hnow.symm),
      ih.2.trans (Desk.tracks_of_act (hs.run hr).balanced ha)⟩
  | look hr hw hn ha ih =>
    obtain ⟨-, -, hc, hnow⟩ := (hs.run hr).look hw hn ha
    exact ⟨Nat.le_trans ih.1 (Nat.le_of_eq hnow.symm), by rw [hc]; exact ih.2⟩

/-- A quiet period was under way already, or it began later and is to last for the whole time. -/
theorem quiet_of_run (hs : v.Sound p) (hr : v.Run looks others v') {w' : Wait}
    (hw' : v'.wait? = some w') {deadline quietUntil : Time} {seen : Nat}
    (hq : w'.phase = .quiet deadline quietUntil seen) :
    (∃ w, v.wait? = some w ∧ w.phase = .quiet deadline quietUntil seen) ∨
      min (deadlineAfter v.now p.settle) p.deadline ≤ quietUntil := by
  induction hr generalizing w' with
  | refl => exact .inl ⟨w', hw', hq⟩
  | elapse _ _ _ _ ih => exact ih hw' hq
  | other hr he ha ih =>
    obtain ⟨h, x, hh, hx, -⟩ := (hs.run hr).waits
    have hux := (wait?_of_handle? hh).trans hx
    obtain rfl : x = w' := Option.some.inj ((wait?_of_spares hux he ha).symm.trans hw')
    exact ih hux hq
  | @look looks others u x x' c s hr hx hn ha ih =>
    have hu := hs.run hr
    obtain ⟨-, hx', -, -⟩ := hu.look hx hn ha
    obtain rfl : x' = w' := Option.some.inj (hx'.symm.trans hw')
    have hf := hu.fits hx
    have hon := hf.onTime
    have hsteps := Wait.steps u.now u.desk.collector x
    rw [hn] at hsteps
    cases hsteps with
    | begins => cases hq
    | replaced => cases hq
    | seen hp =>
      rw [hp] at hon
      cases hq
      have hmono := deadlineAfter_mono (tracks_of_run hs hr).1 p.settle
      rw [hf.settle, show _ = p.deadline from hon]
      exact .inr (Nat.le_min.mpr
        ⟨Nat.le_trans (Nat.min_le_left _ _) hmono, Nat.min_le_right _ _⟩)

/-! ## Results -/

/-- What is seen on a channel at the end of a wait has been there for the quiet period, unless none
was asked for or the time is up. -/
def Terms.Quiet (p : Terms) (v₀ v : Vigil) : Prop :=
  p.settle = .zero ∨ v.now = p.deadline ∨
    deadlineAfter p.begun p.settle ≤ v.now ∧
      ∀ looks others looks' others' u, v₀.Run looks others u → u.Run looks' others' v →
        v.now < deadlineAfter u.now p.settle →
          (u.channel p.waiter).revision = (v.channel p.waiter).revision

/-- What a wait may return. -/
inductive Verdict (p : Terms) (v₀ v : Vigil) : Wait.Outcome → Prop where
  | published {ds : List Wire.Diagnostic} (hs : (v.channel p.waiter).snapshot = .published ds)
      (hq : p.Quiet v₀ v) : Verdict p v₀ v (.ok ds)
  | unreadable {reason : String} (hs : (v.channel p.waiter).snapshot = .unreadable reason)
      (hq : p.Quiet v₀ v) :
      Verdict p v₀ v (.error (.protocol
        s!"Backend sent unreadable diagnostics for {p.waiter.uri}: {reason}"))
  | timedOut (hs : (v.channel p.waiter).snapshot = .pending) (hn : v.now = p.deadline) :
      Verdict p v₀ v (.error (.timedOut
        s!"No diagnostics published for {p.waiter.uri} within {p.timeout.text}"))
  | notConnected {h : Handle} (hh : v.handle? = some h) (hl : h.since < v.desk.losses) :
      Verdict p v₀ v (.error .notConnected)

theorem le_of_quietUntil {x quietUntil deadline now : Nat} (hmin : min x deadline ≤ quietUntil)
    (hq : quietUntil ≤ now) (hlt : now < deadline) : x ≤ now := by
  omega

theorem quiet_of_settled {v₀ : Vigil} (hs : v₀.Sound p) (hw₀ : v₀.wait? = some p.wait)
    (hn₀ : v₀.now = p.begun) (hr : v₀.Run looks others v) (hw : v.wait? = some w)
    {deadline quietUntil : Time}
    (hp : w.phase = .quiet deadline quietUntil (v.channel p.waiter).revision)
    (hq : quietUntil ≤ v.now) : p.Quiet v₀ v := by
  have hv := hs.run hr
  by_cases hlate : v.now = p.deadline
  · exact .inr (.inl hlate)
  have hlt : v.now < p.deadline := Nat.lt_of_le_of_ne hv.now_le hlate
  have hbegun : deadlineAfter p.begun p.settle ≤ v.now := by
    rcases quiet_of_run hs hr hw hp with ⟨w', hw', hp'⟩ | hmin
    · cases hw₀.symm.trans hw'
      cases hp'
    · rw [← hn₀]
      exact le_of_quietUntil hmin hq hlt
  refine .inr (.inr ⟨hbegun, fun _ _ _ _ u hru hruv hwindow => ?_⟩)
  have hu := hs.run hru
  rcases quiet_of_run hu hruv hw hp with ⟨w', hw', hp'⟩ | hmin
  · -- The quiet period was under way at `u`, so nothing seen at its end is newer than that.
    have hf := hu.fits hw'
    have hle := (hf.heeds _ _ _ hp').1
    rw [hf.waiter] at hle
    rcases (tracks_of_run hu hruv).2.advances p.waiter hu.inRange with ⟨heq, -⟩ | hless
    · exact heq.symm
    · exact absurd hle (Nat.not_le_of_lt hless)
  · exact absurd (le_of_quietUntil hmin hq hlt) (Nat.not_le_of_lt hwindow)

theorem verdict_of_returns {v₀ : Vigil} (hs : v₀.Sound p) (hw₀ : v₀.wait? = some p.wait)
    (hn₀ : v₀.now = p.begun) (hr : v₀.Run looks others v) (hret : v.Returns r) :
    Verdict p v₀ v r := by
  have hv := hs.run hr
  obtain ⟨w, c, hw, hd⟩ := hret
  have hf := hv.fits hw
  obtain ⟨rfl, hclosed⟩ | ⟨rfl, hpending, deadline, hp, hle⟩ | ⟨rfl, hfound, hquiet⟩ :=
    Wait.reason_of_done hf.heeds hd
  · obtain ⟨h, hh, hw⟩ := handle?_of_wait? hw
    have hmem : h ∈ v.desk.handles := List.mem_of_getElem? hh
    rw [Collector.closed_channelOf, hv.balanced.waiting h hmem w hw] at hclosed
    exact .notConnected hh (hv.balanced.closed h hmem hclosed)
  · have hon := hf.onTime
    rw [hp] at hon
    have hnow : v.now = p.deadline := Nat.le_antisymm hv.now_le (hon ▸ hle)
    have hsnap : (v.channel p.waiter).snapshot = .pending := by
      rw [hf.waiter] at hpending
      change (v.desk.collector.channelOf p.waiter).snapshot = .pending
      revert hpending
      cases (v.desk.collector.channelOf p.waiter).snapshot with
      | pending => exact fun _ => rfl
      | published | unreadable => exact fun h => by cases h
    rw [Wait.timedOut, hf.waiter, hf.timeout]
    exact .timedOut hsnap hnow
  · have hq : p.Quiet v₀ v := by
      rcases hquiet with hz | ⟨deadline, quietUntil, hp, hle⟩
      · exact .inl (hf.settle ▸ hz)
      · rw [hf.waiter] at hp
        exact quiet_of_settled hs hw₀ hn₀ hr hw hp hle
    rw [hf.waiter] at hfound ⊢
    cases hsnap : (v.desk.collector.channelOf p.waiter).snapshot with
    | published ds => exact .published hsnap hq
    | unreadable reason => exact .unreadable hsnap hq
    | pending =>
      rw [hsnap] at hfound
      cases hfound

/-- **What a wait returns.** Whatever happens at a desk while a wait is under way there: its time is
never up before its deadline and never past it; it is blocked only until some later time within it,
and looks at most twice more for each thing that others do, so that it returns by then; left alone,
it does. What it returns is what is there, and has been there for the quiet period, unless none was
asked for or the time is up; or that the time is up and nothing there; or that the backend has gone
since its waiter was handed out. -/
theorem returned_of_run {v₀ v : Vigil} {p : Terms} {looks others : Nat} (hd : v₀.desk.Reachable)
    (hw : v₀.wait? = some p.wait) (hn : v₀.now = p.begun) (hr : v₀.Run looks others v) :
    v.now ≤ p.deadline ∧ looks ≤ 2 + 2 * others ∧
      (∀ w t?, v.wait? = some w → w.step v.now v.desk.collector = .blocked t? →
        ∃ t, t? = some t ∧ v.now < t ∧ t ≤ p.deadline) ∧
      (∃ looks u r, v.Run looks 0 u ∧ u.now ≤ p.deadline ∧ u.Returns r) ∧
      ∀ r, v.Returns r → Verdict p v₀ v r := by
  have hs : v₀.Sound p := sound_begin (Desk.balanced_of_reachable hd) hw hn
  have hv := hs.run hr
  obtain ⟨h, w, hh, hhw, -⟩ := hv.waits
  have hvw : v.wait? = some w := (wait?_of_handle? hh).trans hhw
  refine ⟨hv.now_le, ?_, fun x t? hx hb => (hv.fits hx).until_le hb, ?_,
    fun r => verdict_of_returns hs hw hn hr⟩
  · have hlooks := looks_of_run hs hr hw hvw
    exact Nat.le_trans (Nat.le_add_right _ _) hlooks
  · obtain ⟨looks', u, r, hru, hret⟩ := returns_alone hv hvw
    exact ⟨looks', u, r, hru, (hv.run hru).now_le, hret⟩

/-! ## A publish during a wait -/

section Sample

/-- A wait that begins at once for a document that was opened at once. -/
def sampleTerms (timeout settle : Duration) : Terms := ⟨⟨"file:///a.py", 1, 0⟩, timeout, settle, 0⟩

/-- A collector with one waiter. -/
def expectant : Collector :=
  (Collector.register { retention := .ofMillis 500, directory := "/" } 0 "file:///a.py" 1 true).1

/-- The collector when there is something for the waiter. -/
def informed : Collector := expectant.send 0 (.published [])

/-- A desk with that waiter, on which a wait is under way. -/
def sample (p : Terms) (now : Time) (c : Collector) (phase : Wait.Phase) : Vigil :=
  ⟨{ now := now, collector := c,
     handles := [⟨p.waiter, 0, some { p.wait with phase := phase }⟩] }, 0⟩

variable {now : Time} {c : Collector} {phase phase' : Wait.Phase}

theorem run_look
    (hn : Wait.step now c { p.wait with phase := phase } =
      .next c { p.wait with phase := phase' }) :
    (sample p now c phase).Run 1 0 (sample p now c phase') := by
  have hw : (sample p now c phase).wait? = some { p.wait with phase := phase } := rfl
  obtain ⟨s, ha⟩ := exists_look hw hn
  have hrun : (sample p now c phase).Run 1 0 ⟨s, 0⟩ := .look .refl hw hn ha
  obtain ⟨h, hh, rfl⟩ := desk_of_look hw hn ha
  cases hh
  exact hrun

/-- The wait goes on being blocked as long as it is. -/
theorem run_elapse {t : Time}
    (hb : Wait.step now c { p.wait with phase := phase } = .blocked (some t)) {t' : Time}
    (hle : now ≤ t') (ht : t' ≤ t) : (sample p now c phase).Run 0 0 (sample p t' c phase) := by
  have hrefl : (sample p now c phase).Run 0 0 (sample p now c phase) := .refl
  have hnow : now + (t' - now) = t' := Nat.add_sub_of_le hle
  have hrun := Run.elapse (d := t' - now) hrefl rfl hb (Nat.le_trans (Nat.le_of_eq hnow) ht)
  have hsame : (sample p now c phase).elapse (t' - now) = sample p t' c phase :=
    congrArg (sample p · c phase) hnow
  rwa [hsame] at hrun

theorem run_publish : (sample p now expectant phase).Run 0 1 (sample p now informed phase) := by
  have hrefl : (sample p now expectant phase).Run 0 0 (sample p now expectant phase) := .refl
  have hnormal : Uri.normalize "/" "file:///a.py" = "file:///a.py" := by decide +kernel
  have hpublish : expectant.publish now ⟨"file:///a.py", some 1, []⟩ = informed := by
    have hd : expectant.directory = "/" := rfl
    rw [Collector.publish, hd, hnormal]
    rfl
  refine .other hrefl (e := .publish ⟨"file:///a.py", some 1, []⟩) trivial ?_
  change some { (sample p now expectant phase).desk with
    collector := expectant.publish now ⟨"file:///a.py", some 1, []⟩ } = _
  rw [hpublish]
  rfl

variable {timeout settle : Duration}

theorem reachable_sample :
    (sample (sampleTerms timeout settle) 0 expectant .begin).desk.Reachable := by
  have hrun : (Desk.new (.ofMillis 500) "/").run
      [.register "file:///a.py" 1 true, .wait 0 timeout settle] =
        some (sample (sampleTerms timeout settle) 0 expectant .begin).desk := by rfl
  exact (Desk.Reachable.new _ _).of_run hrun

/-- For 20 ms there is nothing. -/
theorem run_expectant (hd : 20 ≤ deadlineAfter 0 timeout) :
    (sample (sampleTerms timeout settle) 0 expectant .begin).Run 1 0
      (sample (sampleTerms timeout settle) 20 expectant (.snapshot (deadlineAfter 0 timeout))) := by
  have hblocked : Wait.step 0 expectant
      { (sampleTerms timeout settle).wait with phase := .snapshot (deadlineAfter 0 timeout) } =
        .blocked (some (deadlineAfter 0 timeout)) := by
    have hlt : ¬ deadlineAfter 0 timeout ≤ 0 := Nat.not_le_of_lt (Nat.lt_of_lt_of_le (by decide) hd)
    have hs : (expectant.channelOf (sampleTerms timeout settle).waiter).snapshot = .pending := rfl
    have hc : (expectant.channelOf (sampleTerms timeout settle).waiter).closed = false := rfl
    simp only [Wait.step, Terms.wait, hs, hc, Snapshot.isPending, Bool.not_true, Bool.false_eq_true,
      if_false, if_neg hlt]
  exact (run_look rfl).trans (run_elapse hblocked (Nat.zero_le _) hd)

/-- Then there is something, which stays. -/
theorem run_informed {t : Time} (hz : settle ≠ .zero)
    (ht : min (deadlineAfter 20 settle) (deadlineAfter 0 timeout) = t) (hlt : 20 < t) :
    (sample (sampleTerms timeout settle) 20 expectant (.snapshot (deadlineAfter 0 timeout))).Run 1 1
      (sample (sampleTerms timeout settle) t informed (.quiet (deadlineAfter 0 timeout) t 1)) := by
  have hs : (informed.channelOf (sampleTerms timeout settle).waiter).snapshot = .published [] := rfl
  have hr : (informed.channelOf (sampleTerms timeout settle).waiter).revision = 1 := rfl
  have hc : (informed.channelOf (sampleTerms timeout settle).waiter).closed = false := rfl
  have hseen : Wait.step 20 informed
      { (sampleTerms timeout settle).wait with phase := .snapshot (deadlineAfter 0 timeout) } =
        .next informed { (sampleTerms timeout settle).wait with
          phase := .quiet (deadlineAfter 0 timeout) t 1 } := by
    have hsettle : (sampleTerms timeout settle).settle = settle := rfl
    simp only [Wait.step, Terms.wait, hs, hr, hsettle, Snapshot.isPending, Bool.not_false, if_true,
      if_neg hz, ht]
  have hblocked : Wait.step 20 informed { (sampleTerms timeout settle).wait with
      phase := .quiet (deadlineAfter 0 timeout) t 1 } = .blocked (some t) := by
    simp only [Wait.step, Terms.wait, hr, hc, ne_eq, not_true_eq_false, Bool.false_eq_true, if_false,
      if_neg (Nat.not_le_of_lt hlt)]
  exact run_publish.trans ((run_look hseen).trans
    (run_elapse hblocked (Nat.le_of_lt hlt) (Nat.le_refl _)))

theorem returns_informed {deadline t : Time} :
    (sample (sampleTerms timeout settle) t informed (.quiet deadline t 1)).Returns (.ok []) :=
  ⟨_, informed, rfl, (if_pos (Nat.le_refl _)).trans rfl⟩

/-- A publish comes after 20 ms, and nothing for 30 ms after it; then the wait returns. -/
theorem returned_of_run_published :
    Verdict (sampleTerms (.ofMillis 100) (.ofMillis 30))
      (sample (sampleTerms (.ofMillis 100) (.ofMillis 30)) 0 expectant .begin)
      (sample (sampleTerms (.ofMillis 100) (.ofMillis 30)) 50 informed
        (.quiet (deadlineAfter 0 (.ofMillis 100)) 50 1)) (.ok []) := by
  have hd : 20 ≤ deadlineAfter 0 (.ofMillis 100) := by decide +kernel
  have hz : Duration.ofMillis 30 ≠ .zero := by decide +kernel
  have ht : min (deadlineAfter 20 (.ofMillis 30)) (deadlineAfter 0 (.ofMillis 100)) = 50 := by
    decide +kernel
  have hrun := (run_expectant hd).trans (run_informed hz ht (by decide))
  exact (returned_of_run reachable_sample rfl rfl hrun).2.2.2.2 _ returns_informed

/-- Asked for the longest quiet period, a wait returns thirty years after a publish, which is neither
its deadline nor that period later. -/
theorem early_return :
    ∃ (p : Terms) (v₀ u v : Vigil) (looks others looks' others' : Nat),
      v₀.desk.Reachable ∧ v₀.wait? = some p.wait ∧ v₀.now = p.begun ∧ v₀.Run looks others u ∧
      u.Run looks' others' v ∧ v.Returns (.ok []) ∧
      p.settle ≠ .zero ∧ v.now ≠ p.deadline ∧
      (u.channel p.waiter).revision ≠ (v.channel p.waiter).revision ∧
      (v.now - u.now) * Duration.nanosPerMilli < p.settle.nanos := by
  have hd : 20 ≤ deadlineAfter 0 (.ofMillis 3153600000000) := by decide +kernel
  have ht : min (deadlineAfter 20 .max) (deadlineAfter 0 (.ofMillis 3153600000000)) =
      946080000020 := by decide +kernel
  have hz : Duration.max ≠ .zero := by decide +kernel
  have hlt : 20 < 946080000020 := by decide
  have hlate : 946080000020 ≠ deadlineAfter 0 (.ofMillis 3153600000000) := by decide +kernel
  have hearly : (946080000020 - 20) * Duration.nanosPerMilli < Duration.max.nanos := by
    decide +kernel
  exact ⟨sampleTerms (.ofMillis 3153600000000) .max, _, _, _, _, _, _, _, reachable_sample, rfl, rfl,
    run_expectant hd, run_informed hz ht hlt, returns_informed, hz, hlate, Nat.zero_ne_one, hearly⟩

end Sample

end Vigil

end DiagnosticBroker
