import DiagnosticBroker.Instance.Incoming
import DiagnosticBroker.Proofs.Collector.Matching
import DiagnosticBroker.Proofs.Collector.Vigil

/-!
# Diagnostics that cannot be read

A publish that cannot be decoded still names its document, and perhaps a version of it. Unless the
version is an older one, everybody who waits for the document is told, and goes on being told until
something else is known: another publish is accepted, the document is registered anew, or the backend
goes. A document whose diagnostics cannot be read is thus never taken for one without faults.

`Collector.Spoiled` is the invariant. It says that whoever waits for the document sees the failure;
what it does not say, that nobody's channel is closed under them, is part of `Desk.Balanced`.

Results:
* `spoiled_of_act`: only an event that renews the document ends it.
* `Wait.failsUnreadable_of_done`: what a wait comes to that sees the failure.
* `failed_of_undecodable`: what comes of a publish that cannot be decoded.
-/

namespace DiagnosticBroker

/-! ## What is seen -/

namespace Collector

variable {c c' : Collector} {live : List Waiter} {now : Time} {uri u : String} {version : Int}
  {opened : Bool} {w : Waiter} {sub : Subscription}

/-- Everybody who waits for a document sees that its diagnostics cannot be read. -/
def Spoiled (c : Collector) (uri : String) : Prop :=
  ∀ sub, c.subscriptions.lookup uri = some sub → ∀ x : Waiter, x.subscription = sub.id →
    ∃ reason, (c.channelOf x).snapshot = .unreadable reason

/-- A publish is about a document that somebody waits for, and not about an older version of it. -/
def Accepts (c : Collector) (uri : String) (p : Wire.Publish) : Prop :=
  c.subject p = uri ∧ ∃ sub, c.subscriptions.lookup uri = some sub ∧ sub.isStale p.version = false

/-- The failure is seen as long as the subscription stays and its snapshot, too. -/
theorem Spoiled.of_kept (h : c.Spoiled uri)
    (hk : ∀ sub', c'.subscriptions.lookup uri = some sub' →
      ∃ sub, c.subscriptions.lookup uri = some sub ∧ sub.id = sub'.id ∧
        ∀ x : Waiter, x.subscription = sub.id →
          (c'.channelOf x).snapshot = (c.channelOf x).snapshot) : c'.Spoiled uri := by
  intro sub' hsub' x hx
  obtain ⟨sub, hsub, hid, hsame⟩ := hk sub' hsub'
  have hx' : x.subscription = sub.id := hx.trans hid.symm
  rw [hsame x hx']
  exact h sub hsub x hx'

/-- Two documents have no channel in common. -/
theorem Accounts.subscription_ne (ha : Accounts c live) {other : Subscription}
    (hs : c.subscriptions.lookup uri = some sub) (hs' : c.subscriptions.lookup u = some other)
    (hne : uri ≠ u) {x : Waiter} (hx : x.subscription = sub.id) : x.subscription ≠ other.id := by
  intro heq
  exact hne (ha.distinct uri u sub other hs hs' (hx.symm.trans heq))

theorem Spoiled.register (h : c.Spoiled uri) (ha : Accounts c live) (hne : uri ≠ u)
    (hr : c.register now u version opened = (c', w)) : c'.Spoiled uri := by
  refine h.of_kept fun sub hsub => ?_
  rw [lookup_of_register hr hne] at hsub
  refine ⟨sub, hsub, rfl, fun x hx => ?_⟩
  rcases joins_or_founds hr with ⟨other, hj⟩ | hf
  · rw [hj.channelOf (ha.lt hj.found), if_neg (ha.subscription_ne hsub hj.found hne hx)]
  · rw [hf.channelOf_of_lt (by rw [hx]; exact ha.lt hsub)]

theorem Spoiled.publish (h : c.Spoiled uri) (ha : Accounts c live) {p : Wire.Publish}
    (hp : ¬ c.Accepts uri p) : (c.publish now p).Spoiled uri := by
  refine h.of_kept fun sub hsub => ?_
  rw [subscriptions_publish] at hsub
  refine ⟨sub, hsub, rfl, fun x hx => ?_⟩
  rcases publish_cases c now p with ⟨other, hother, ⟨-, heq⟩ | ⟨hfresh, heq⟩⟩ | ⟨-, heq⟩
  · rw [heq]
  · have hne : uri ≠ c.subject p := by
      rintro rfl
      exact hp ⟨rfl, other, hother, hfresh⟩
    rw [heq, channelOf_send (ha.lt hother), if_neg (ha.subscription_ne hsub hother hne hx)]
  · have hchannels : (c.publish now p).channels = c.channels := by
      rw [heq]
      exact (thins_withRoom c now (c.subject p)).channels
    rw [channelOf_congr hchannels]

/-- Another publish that cannot be decoded only changes the reason. -/
theorem Spoiled.reject (h : c.Spoiled uri) (ha : Accounts c live) (u : String)
    (version : Option Int) (reason : String) : (c.reject u version reason).1.Spoiled uri := by
  intro sub hsub x hx
  rw [subscriptions_reject] at hsub
  obtain ⟨reason₀, hreason₀⟩ := h sub hsub x hx
  obtain ⟨c', ht, heq | ⟨other, hother, -, heq⟩⟩ := reject_cases c u version reason
  · rw [heq, channelOf_congr ht.channels]
    exact ⟨reason₀, hreason₀⟩
  · rw [heq, channelOf_send (by rw [ht.channels]; exact ha.lt hother), channelOf_congr ht.channels]
    split_ifs
    · exact ⟨reason, rfl⟩
    · exact ⟨reason₀, hreason₀⟩

theorem Spoiled.release (h : c.Spoiled uri) (w : Waiter) : (c.release w).Spoiled uri := by
  refine h.of_kept fun sub hsub => ?_
  suffices hold : ∃ sub₀, c.subscriptions.lookup uri = some sub₀ ∧ sub₀.id = sub.id by
    obtain ⟨sub₀, hsub₀, hid⟩ := hold
    exact ⟨sub₀, hsub₀, hid, fun x _ => snapshot_release c w x⟩
  rcases release_cases c w with ⟨heq, -⟩ | ⟨s, hs, -, ⟨-, -, -, hl⟩ | ⟨-, -, -, hl⟩⟩
  · rw [heq] at hsub
    exact ⟨sub, hsub, rfl⟩
  · rw [hl] at hsub
    split_ifs at hsub
    exact ⟨sub, hsub, rfl⟩
  · rw [hl] at hsub
    split_ifs at hsub with huri
    · cases hsub
      exact ⟨s, by rw [huri]; exact hs, rfl⟩
    · exact ⟨sub, hsub, rfl⟩

/-! ## The publish itself -/

/-- About an older version it changes nothing that anybody sees. -/
theorem channelOf_reject_of_stale {v : Option Int} {reason : String}
    (hs : c.subscriptions.lookup (Uri.normalize c.directory u) = some sub)
    (hv : sub.isStale v = true) (x : Waiter) :
    (c.reject u v reason).1.channelOf x = c.channelOf x := by
  obtain ⟨c', ht, heq | ⟨other, hother, hfresh, -⟩⟩ := reject_cases c u v reason
  · rw [heq, channelOf_congr ht.channels]
  · cases hs.symm.trans hother
    rw [hv] at hfresh
    cases hfresh

/-- Otherwise everybody sees it who waits for the document. -/
theorem spoiled_of_reject (ha : Accounts c live) {v : Option Int} {reason : String}
    (hs : c.subscriptions.lookup (Uri.normalize c.directory u) = some sub)
    (hv : sub.isStale v = false) :
    (c.reject u v reason).1.Spoiled (Uri.normalize c.directory u) := by
  intro sub' hsub' x hx
  rw [subscriptions_reject] at hsub'
  cases hs.symm.trans hsub'
  have hforget := thins_forget c (Uri.normalize c.directory u)
  have hsent : (c.reject u v reason).1 =
      (c.forget (Uri.normalize c.directory u)).send sub.id (.unreadable reason) := by
    have hkept : (c.forget (Uri.normalize c.directory u)).subscriptions.lookup
        (Uri.normalize c.directory u) = some sub := hs
    simp only [Collector.reject, hkept, hv, Bool.false_eq_true, if_false]
  rw [hsent, channelOf_send (by rw [hforget.channels]; exact ha.lt hs), if_pos hx]
  exact ⟨reason, rfl⟩

end Collector

/-! ## What a wait comes to -/

/-- A wait has failed because what the backend published cannot be read. -/
def Wait.FailsUnreadable (uri : String) (r : Wait.Outcome) : Prop :=
  ∃ reason : String,
    r = .error (.protocol s!"Backend sent unreadable diagnostics for {uri}: {reason}")

/-- A wait that sees the failure comes to nothing else: there is something, so that the time cannot
run out over it, and it is no snapshot. -/
theorem Wait.failsUnreadable_of_done {now : Time} {c c' : Collector} {w : Wait} {r : Wait.Outcome}
    {reason : String} (hs : (c.channelOf w.waiter).snapshot = .unreadable reason)
    (hc : (c.channelOf w.waiter).closed = false) (h : w.step now c = .done c' r) :
    FailsUnreadable w.waiter.uri r := by
  have hsteps := steps now c w
  rw [h] at hsteps
  cases hsteps with
  | taken | settled =>
    rw [hs]
    exact ⟨reason, rfl⟩
  | gone _ _ hclosed | cutOff _ _ hclosed =>
    rw [hc] at hclosed
    cases hclosed
  | late _ hpending =>
    rw [hs] at hpending
    cases hpending

/-! ## Until something else is known -/

namespace Desk

variable {s t : Desk} {e : Event} {uri : String} {h : Handle}

/-- An event after which something else is known of a document. -/
def Event.Renews (c : Collector) (uri : String) : Event → Prop
  | .register u _ _ => u = uri
  | .publish p => c.Accepts uri p
  | .disconnect => True
  | _ => False

/-- From one state of a desk to a later one, and nothing else has become known of a document. -/
inductive Meanwhile (uri : String) (s : Desk) : Desk → Prop where
  | refl : Meanwhile uri s s
  | step {t t' : Desk} {e : Event} (hm : Meanwhile uri s t) (he : ¬ e.Renews t.collector uri)
      (ha : t.act e = some t') : Meanwhile uri s t'

theorem spoiled_of_act (hb : s.Balanced) (hs : s.collector.Spoiled uri)
    (he : ¬ e.Renews s.collector uri) (ha : s.act e = some t) : t.collector.Spoiled uri := by
  cases e with
  | elapse =>
    cases ha
    exact hs
  | register u version opened =>
    cases ha
    have hne : uri ≠ u := fun heq => he heq.symm
    exact hs.register hb.accounts hne rfl
  | publish p =>
    cases ha
    exact hs.publish hb.accounts he
  | reject u version reason =>
    cases ha
    exact hs.reject hb.accounts u version reason
  | disconnect => exact absurd trivial he
  | drop n =>
    obtain ⟨x, -, rfl⟩ := Option.map_eq_some_iff.mp ha
    exact hs.release x.waiter
  | wait n timeout settle =>
    obtain ⟨x, -, ha⟩ := Option.bind_eq_some_iff.mp ha
    split at ha <;> cases ha
    exact hs
  | look n =>
    obtain ⟨x, -, ha⟩ := Option.bind_eq_some_iff.mp ha
    obtain ⟨w, -, ha⟩ := Option.bind_eq_some_iff.mp ha
    split at ha <;> cases ha <;> exact hs
  | turnAway n =>
    obtain ⟨x, -, rfl⟩ := Option.map_eq_some_iff.mp ha
    exact hs

theorem Meanwhile.reachable (hm : s.Meanwhile uri t) (hs : s.Reachable) : t.Reachable := by
  induction hm with
  | refl => exact hs
  | step _ _ ha ih => exact ih.step ha

theorem Meanwhile.spoiled (hm : s.Meanwhile uri t) (hr : s.Reachable)
    (hs : s.collector.Spoiled uri) : t.collector.Spoiled uri := by
  induction hm with
  | refl => exact hs
  | step hm he ha ih => exact spoiled_of_act (balanced_of_reachable (hm.reachable hr)) ih he ha

theorem Balanced.failsUnreadable (hb : s.Balanced) (hs : s.collector.Spoiled uri)
    (hh : h ∈ s.handles) (ha : s.Awaits uri h) {w : Wait} (hw : h.wait? = some w) {c : Collector}
    {r : Wait.Outcome} (hd : w.step s.now s.collector = .done c r) :
    Wait.FailsUnreadable uri r := by
  obtain ⟨sub, hsub, hid⟩ := ha
  have hwaiter : w.waiter = h.waiter := hb.waiting h hh w hw
  have huri : uri = h.waiter.uri := hb.accounts.owner _ (mem_waiters hh) uri sub hsub hid
  obtain ⟨reason, hreason⟩ := hs sub hsub w.waiter (by rw [hwaiter, hid])
  have hopen : (s.collector.channelOf w.waiter).closed = false := by
    rw [Collector.closed_channelOf, hwaiter, ← hid]
    exact hb.accounts.isOpen uri sub hsub
  rw [huri, ← hwaiter]
  exact Wait.failsUnreadable_of_done hreason hopen hd

end Desk

/-! ## A wait that is left alone -/

namespace Vigil

variable {v u : Vigil} {h : Handle} {p : Terms} {looks : Nat} {uri : String}

/-- A wait is under way that began as it was asked for. -/
def UnderWay (p : Terms) (v : Vigil) : Prop :=
  ∃ (v₀ : Vigil) (looks others : Nat), v₀.desk.Reachable ∧ v₀.wait? = some p.wait ∧
    v₀.now = p.begun ∧ v₀.Run looks others v

theorem UnderWay.sound (h : v.UnderWay p) : v.Sound p := by
  obtain ⟨v₀, looks, others, hd, hw, hn, hr⟩ := h
  exact (sound_begin (Desk.balanced_of_reachable hd) hw hn).run hr

/-- A wait changes nothing but itself. -/
theorem collector_of_run_alone (hs : v.Sound p) (hr : v.Run looks 0 u) :
    u.desk.collector = v.desk.collector := by
  generalize hothers : 0 = others at hr
  induction hr with
  | refl => rfl
  | elapse _ _ _ _ ih => exact ih hothers
  | other => cases hothers
  | look hr hw hn ha ih =>
    obtain ⟨-, -, hc, -⟩ := (hs.run hr).look hw hn ha
    exact hc.trans (ih hothers)

/-- Left alone, a wait that sees the failure fails, and in time. -/
theorem Sound.failsUnreadable (hs : v.Sound p) (hspoiled : v.desk.collector.Spoiled uri)
    (hh : v.handle? = some h) (ha : v.desk.Awaits uri h) :
    ∃ looks u r, v.Run looks 0 u ∧ u.now ≤ p.deadline ∧ u.Returns r ∧
      Wait.FailsUnreadable uri r := by
  obtain ⟨h₀, w₀, hh₀, hw₀, hf₀⟩ := hs.waits
  cases hh.symm.trans hh₀
  obtain ⟨looks, u, r, hru, hret⟩ := returns_alone hs ((wait?_of_handle? hh).trans hw₀)
  have hu : u.Sound p := hs.run hru
  have hcollector : u.desk.collector = v.desk.collector := collector_of_run_alone hs hru
  refine ⟨looks, u, r, hru, hu.now_le, hret, ?_⟩
  obtain ⟨w, c, hw, hd⟩ := hret
  obtain ⟨x, hx, hxw⟩ := handle?_of_wait? hw
  have hmem : x ∈ u.desk.handles := List.mem_of_getElem? hx
  have hsame : x.waiter = h.waiter := by
    rw [← hu.balanced.waiting x hmem w hxw, (hu.fits hw).waiter, ← hf₀.waiter]
    exact hs.balanced.waiting h (List.mem_of_getElem? hh) w₀ hw₀
  have hawaits : u.desk.Awaits uri x := by
    unfold Desk.Awaits
    rw [hcollector, hsame]
    exact ha
  exact hu.balanced.failsUnreadable (by rw [hcollector]; exact hspoiled) hmem hawaits hxw hd

end Vigil

/-! ## A publish that cannot be decoded -/

/-- The parameters of a publish name a version: an integer of 32 bits. -/
def Instance.NamesVersion (params : Json) (v : Int) : Prop :=
  params.get? "version" = some (.num (.int v)) ∧ Word.minI32 ≤ v ∧ v ≤ Word.maxI32

theorem Instance.publishedVersion_eq_some_iff {params : Json} {v : Int} :
    publishedVersion params = some v ↔ NamesVersion params v := by
  unfold publishedVersion NamesVersion
  split
  · rename_i n hn
    rw [hn]
    simp only [Bool.and_eq_true, decide_eq_true_iff, Option.ite_none_right_eq_some,
      Option.some.injEq, Json.num.injEq, Json.Number.int.injEq]
    constructor
    · rintro ⟨hrange, rfl⟩
      exact ⟨rfl, hrange⟩
    · rintro ⟨rfl, hrange⟩
      exact ⟨hrange, rfl⟩
  · rename_i hn
    constructor
    · intro hv
      cases hv
    · rintro ⟨hv, -⟩
      exact absurd hv (hn v)

theorem Subscription.isStale_publishedVersion {sub : Subscription} {params : Json} :
    sub.isStale (Instance.publishedVersion params) = true ↔
      ∃ v, Instance.NamesVersion params v ∧ v < sub.version := by
  simp only [← Instance.publishedVersion_eq_some_iff]
  cases Instance.publishedVersion params with
  | none => simp [Subscription.isStale]
  | some v => simp [Subscription.isStale]

/-- What an instance does with it. -/
theorem Instance.collector_of_undecodable {i : Instance} {now : Time} {k : Nat}
    {n : Wire.Notification} {params : Json} {u : String} {e : Json.DecodeError}
    (hm : n.method = Wire.Publish.method) (hp : n.params = some params)
    (hu : params.get? "uri" = some (.str u)) (he : Wire.Publish.decode params = .error e) :
    (i.receive now k (.notification n)).collector =
      (i.collector.reject u (publishedVersion params) e.message).1 := by
  have huri : (params.get? "uri").bind Json.str? = some u := by
    rw [hu]
    rfl
  simp only [receive, takeNotification, takePublish, hm, hp, he, huri, Option.getD_some, if_true]

namespace Desk

variable {s : Desk}

/-- The desk of an instance after a message was taken in. -/
def hears (s : Desk) (i : Instance) (k : Nat) (m : Wire.Message) : Desk :=
  { s with collector := (i.receive s.now k m).collector }

section Undecodable

variable {i : Instance} {k : Nat} {n : Wire.Notification} {params : Json} {u : String}
  {e : Json.DecodeError}

theorem collector_of_undecodable (hi : i.collector = s.collector)
    (hm : n.method = Wire.Publish.method) (hp : n.params = some params)
    (hu : params.get? "uri" = some (.str u)) (he : Wire.Publish.decode params = .error e) :
    (s.hears i k (.notification n)).collector =
      (s.collector.reject u (Instance.publishedVersion params) e.message).1 := by
  rw [← hi]
  exact Instance.collector_of_undecodable hm hp hu he

theorem act_of_undecodable (hi : i.collector = s.collector)
    (hm : n.method = Wire.Publish.method) (hp : n.params = some params)
    (hu : params.get? "uri" = some (.str u)) (he : Wire.Publish.decode params = .error e) :
    s.act (.reject u (Instance.publishedVersion params) e.message) =
      some (s.hears i k (.notification n)) := by
  have hcollector := collector_of_undecodable (k := k) hi hm hp hu he
  rw [act, ← hcollector]
  rfl

end Undecodable

/-- **A publish that cannot be decoded.** If it names a document that somebody waits for, and not an
older version of it, then from that moment on until another publish for the document is accepted, the
document is registered anew or the backend goes, every wait of everybody who waits for the document
fails and says that the diagnostics cannot be read: it comes to nothing else, and left alone it comes
to that by its deadline. They are all who were handed out a waiter for the document since the backend
came. If the version is an older one, nobody sees anything of the publish. -/
theorem failed_of_undecodable (hs : s.Reachable) {i : Instance} (hi : i.collector = s.collector)
    (k : Nat) {n : Wire.Notification} (hm : n.method = Wire.Publish.method) {params : Json}
    (hp : n.params = some params) {u : String} (hu : params.get? "uri" = some (.str u))
    {e : Json.DecodeError} (he : Wire.Publish.decode params = .error e) {uri : String}
    (huri : Uri.normalize s.collector.directory u = uri) {sub : Subscription}
    (hsub : s.collector.subscriptions.lookup uri = some sub) :
    ((∀ version, Instance.NamesVersion params version → ¬ version < sub.version) →
      ∀ t, (s.hears i k (.notification n)).Meanwhile uri t →
        ∀ h ∈ t.handles, (t.Awaits uri h ↔ h.waiter.uri = uri ∧ h.since = t.losses) ∧
          (t.Awaits uri h →
            (∀ w c r, h.wait? = some w → w.step t.now t.collector = .done c r →
              Wait.FailsUnreadable uri r) ∧
            ∀ (v : Vigil) (p : Vigil.Terms), v.desk = t → v.handle? = some h → v.UnderWay p →
              ∃ looks v' r, v.Run looks 0 v' ∧ v'.now ≤ p.deadline ∧ v'.Returns r ∧
                Wait.FailsUnreadable uri r)) ∧
    ((∃ version, Instance.NamesVersion params version ∧ version < sub.version) →
      ∀ x : Waiter, (s.hears i k (.notification n)).collector.channelOf x =
        s.collector.channelOf x) := by
  subst huri
  have hb : s.Balanced := balanced_of_reachable hs
  have hcollector := collector_of_undecodable (k := k) hi hm hp hu he
  refine ⟨fun hversion t hmeanwhile h hh => ?_, fun hstale x => ?_⟩
  · have hfresh : sub.isStale (Instance.publishedVersion params) = false := by
      rw [Bool.eq_false_iff, ne_eq, Subscription.isStale_publishedVersion]
      rintro ⟨version, hnames, hlt⟩
      exact hversion version hnames hlt
    have hspoiled : (s.hears i k (.notification n)).collector.Spoiled
        (Uri.normalize s.collector.directory u) := by
      rw [hcollector]
      exact Collector.spoiled_of_reject hb.accounts hsub hfresh
    have hheard : (s.hears i k (.notification n)).Reachable :=
      hs.step (act_of_undecodable hi hm hp hu he)
    have ht : t.Reachable := hmeanwhile.reachable hheard
    have hts := hmeanwhile.spoiled hheard hspoiled
    refine ⟨awaits_iff_of_reachable ht hh, fun ha => ⟨fun w c r hw hd => ?_, ?_⟩⟩
    · exact (balanced_of_reachable ht).failsUnreadable hts hh ha hw hd
    · rintro v p rfl hv hunder
      exact hunder.sound.failsUnreadable hts hv ha
  · rw [hcollector]
    exact Collector.channelOf_reject_of_stale hsub
      (Subscription.isStale_publishedVersion.mpr hstale) x

/-! ## A list that is missing -/

/-- The parameters of a publish for a version of a document, but without its diagnostics. -/
def listless (version : Int) : Json :=
  .obj [("uri", .str "file:///a.py"), ("version", .int version)]

/-- A wait for 100 ms that begins at once. -/
def hopeful : Vigil :=
  Vigil.sample (Vigil.sampleTerms (.ofMillis 100) .zero) 0 Vigil.expectant .begin

/-- The instance whose collector that is. -/
def listening : Instance :=
  { Instance.new ⟨["pylsp"], [".py"], "python"⟩ (.ofSettings {}) [] "/" with
    collector := Vigil.expectant }

/-- The desk when it has heard of a version. -/
def disappointed (version : Int) : Desk :=
  hopeful.desk.hears listening 0
    (.notification (.new Wire.Publish.method (some (listless version))))

/-- For the version that somebody waits for, a publish without diagnostics fails the wait; for an
older one it changes nothing. -/
theorem failed_of_undecodable_listless :
    (∃ looks v' r, (Vigil.mk (disappointed 1) 0).Run looks 0 v' ∧ v'.now ≤ 100 ∧ v'.Returns r ∧
      Wait.FailsUnreadable "file:///a.py" r) ∧
    ∀ x : Waiter, (disappointed 0).collector.channelOf x = Vigil.expectant.channelOf x := by
  have hnormal : Uri.normalize "/" "file:///a.py" = "file:///a.py" := by decide +kernel
  have hmissing : ∀ version, version = 0 ∨ version = 1 →
      Wire.Publish.decode (listless version) = .error (.missingField "diagnostics") := by
    rintro version (rfl | rfl) <;> rfl
  have hreach : hopeful.desk.Reachable := Vigil.reachable_sample
  have hfirst : hopeful.desk.collector.subscriptions.lookup "file:///a.py" = some ⟨0, 1, 1⟩ := rfl
  constructor
  · have hundecodable := hmissing 1 (.inr rfl)
    have hrun : hopeful.Run 0 1 ⟨disappointed 1, 0⟩ :=
      .other (e := .reject "file:///a.py" (some 1) "missing field `diagnostics`") .refl trivial
        (act_of_undecodable rfl rfl rfl rfl hundecodable)
    have hunder : Vigil.UnderWay (Vigil.sampleTerms (.ofMillis 100) .zero) ⟨disappointed 1, 0⟩ :=
      ⟨hopeful, 0, 1, hreach, rfl, rfl, hrun⟩
    have hcurrent : ∀ version, Instance.NamesVersion (listless 1) version → ¬ version < 1 := by
      rintro version ⟨hnames, -⟩
      cases hnames
      decide
    obtain ⟨hfailed, -⟩ := failed_of_undecodable hreach (i := listening) rfl 0
      (n := .new Wire.Publish.method (some (listless 1))) rfl rfl rfl hundecodable hnormal hfirst
    obtain ⟨hwaits, hfails⟩ := hfailed hcurrent (disappointed 1) .refl
      ⟨⟨"file:///a.py", 1, 0⟩, 0, some (Vigil.sampleTerms (.ofMillis 100) .zero).wait⟩
      (List.mem_singleton.mpr rfl)
    exact (hfails (hwaits.mpr ⟨rfl, rfl⟩)).2 _ _ rfl rfl hunder
  · obtain ⟨-, hstale⟩ := failed_of_undecodable hreach (i := listening) rfl 0
      (n := .new Wire.Publish.method (some (listless 0))) rfl rfl rfl (hmissing 0 (.inl rfl))
      hnormal hfirst
    exact hstale ⟨0, ⟨rfl, by decide, by decide⟩, by decide⟩

end Desk

end DiagnosticBroker
