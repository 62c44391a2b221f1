import DiagnosticBroker.Proofs.Collector.Channels
import DiagnosticBroker.Proofs.Collector.Revisions
import Mathlib.Data.List.Nodup
import Mathlib.Tactic.ByContra
import Mathlib.Tactic.SplitIfs

/-!
# Room for unclaimed publishes

A publish for a document that nobody waits for is kept. There is room for 200 of them. Before one is
added, those that are too old go. If there is still no room, and the new one is for another document
than all others (`Collector.IsFullFor`), the one that was received first goes as well.

Results:
* `oldest?_eq_some`: which entry makes room.
* `length_withRoom_lt`: there is room afterwards.
* `leaves_withRoom`: which entry goes, and that no other one does.
* `snapshot_register`, `seedFor_cases`: what a registration makes of an entry.
-/

namespace DiagnosticBroker

namespace Collector

variable {c : Collector} {now : Time} {uri : String} {version : Int} {x y : String × Unclaimed}

/-! ## Age -/

/-- An entry that is kept for a shorter time than the collector keeps entries. -/
def IsYoung (c : Collector) (now : Time) (u : Unclaimed) : Prop :=
  Duration.ofMillis (now - u.received) < c.retention

theorem mem_prune : x ∈ (c.prune now).unclaimed ↔ x ∈ c.unclaimed ∧ c.IsYoung now x.2 := by
  rw [prune, List.mem_filter, decide_eq_true_iff, IsYoung]

theorem mem_forget : x ∈ (c.forget uri).unclaimed ↔ x ∈ c.unclaimed ∧ x.1 ≠ uri := by
  rw [forget, List.mem_filter, decide_eq_true_iff]

theorem oldest?_eq_none_iff {us : List (String × Unclaimed)} : oldest? us = none ↔ us = [] := by
  cases us with
  | nil => simp [oldest?]
  | cons u us =>
    rw [oldest?]
    split
    · simp
    · split <;> simp

/-- Of several entries the one that was received first. -/
theorem oldest?_eq_some {us : List (String × Unclaimed)} (h : oldest? us = some x) :
    x ∈ us ∧ ∀ u ∈ us, x.2.received ≤ u.2.received := by
  induction us generalizing x with
  | nil => cases h
  | cons u us ih =>
    rw [oldest?] at h
    cases ho : oldest? us with
    | none =>
      rw [ho] at h
      cases h
      rw [oldest?_eq_none_iff.mp ho]
      exact ⟨List.mem_singleton.mpr rfl, by simp⟩
    | some o =>
      obtain ⟨hmem, hle⟩ := ih ho
      simp only [ho] at h
      split_ifs at h with hlt <;> cases h
      · refine ⟨List.mem_cons_of_mem _ hmem, fun v hv => ?_⟩
        rcases List.mem_cons.mp hv with rfl | hv
        · exact Nat.le_of_lt hlt
        · exact hle v hv
      · refine ⟨List.mem_cons_self, fun v hv => ?_⟩
        rcases List.mem_cons.mp hv with rfl | hv
        · exact Nat.le_refl _
        · exact Nat.le_trans (Nat.le_of_not_lt hlt) (hle v hv)

theorem evictOldest_eq (h : oldest? c.unclaimed = some x) : c.evictOldest = c.forget x.1 := by
  simp only [evictOldest, h]

/-! ## Room -/

/-- No document has two entries. -/
def Shelved (c : Collector) : Prop := (c.unclaimed.map (·.1)).Nodup

theorem Shelved.eq_of_key (h : c.Shelved) (hx : x ∈ c.unclaimed) (hy : y ∈ c.unclaimed)
    (hkey : x.1 = y.1) : x = y :=
  List.inj_on_of_nodup_map h hx hy hkey

theorem Shelved.of_sublist {c' : Collector} (h : c.Shelved)
    (hs : c'.unclaimed.Sublist c.unclaimed) : c'.Shelved :=
  h.sublist (hs.map _)

theorem sublist_prune (c : Collector) (now : Time) :
    (c.prune now).unclaimed.Sublist c.unclaimed :=
  List.filter_sublist

theorem sublist_forget (c : Collector) (uri : String) :
    (c.forget uri).unclaimed.Sublist c.unclaimed :=
  List.filter_sublist

theorem sublist_evictOldest (c : Collector) : c.evictOldest.unclaimed.Sublist c.unclaimed := by
  unfold evictOldest
  split
  · exact sublist_forget c _
  · exact .refl _

/-- Leaving out the document of an entry makes room. -/
theorem length_forget_lt (hx : x ∈ c.unclaimed) :
    (c.forget x.1).unclaimed.length < c.unclaimed.length :=
  List.length_filter_lt_length_iff_exists.mpr ⟨x, hx, by simp⟩

/-- All entries are young, none of them is for the document, and there are as many as may be. -/
def IsFullFor (c : Collector) (now : Time) (uri : String) : Prop :=
  maxUnclaimed ≤ (c.prune now).unclaimed.length ∧ ∀ y ∈ (c.prune now).unclaimed, y.1 ≠ uri

theorem lookup_eq_none_iff_ne {us : List (String × Unclaimed)} :
    us.lookup uri = none ↔ ∀ y ∈ us, y.1 ≠ uri := by
  rw [List.lookup_eq_none_iff]
  refine forall₂_congr fun y _ => ?_
  rw [bne_iff_ne, ne_comm]

/-- What is done to make room for a document. -/
theorem withRoom_cases (c : Collector) (now : Time) (uri : String) :
    (c.IsFullFor now uri ∧ c.withRoom now uri = (c.prune now).evictOldest.forget uri) ∨
      ¬ c.IsFullFor now uri ∧ c.withRoom now uri = (c.prune now).forget uri := by
  have hfull : (decide (maxUnclaimed ≤ (c.prune now).unclaimed.length) &&
      ((c.prune now).unclaimed.lookup uri).isNone) = true ↔ c.IsFullFor now uri := by
    rw [Bool.and_eq_true, decide_eq_true_iff, Option.isNone_iff_eq_none, lookup_eq_none_iff_ne,
      IsFullFor]
  by_cases h : c.IsFullFor now uri
  · refine .inl ⟨h, ?_⟩
    simp only [withRoom, hfull.mpr h, if_true]
  · refine .inr ⟨h, ?_⟩
    simp only [withRoom]
    rw [if_neg fun h' => h (hfull.mp h')]

theorem sublist_withRoom (c : Collector) (now : Time) (uri : String) :
    (c.withRoom now uri).unclaimed.Sublist c.unclaimed := by
  rcases withRoom_cases c now uri with ⟨-, heq⟩ | ⟨-, heq⟩ <;> rw [heq]
  · exact (sublist_forget _ _).trans ((sublist_evictOldest _).trans (sublist_prune c now))
  · exact (sublist_forget _ _).trans (sublist_prune c now)

/-- What is left was there, and is not for the document. -/
theorem mem_withRoom (h : x ∈ (c.withRoom now uri).unclaimed) : x ∈ c.unclaimed ∧ x.1 ≠ uri := by
  refine ⟨(sublist_withRoom c now uri).subset h, ?_⟩
  rcases withRoom_cases c now uri with ⟨-, heq⟩ | ⟨-, heq⟩ <;> rw [heq] at h
  · exact (mem_forget.mp h).2
  · exact (mem_forget.mp h).2

/-- There is room for another entry. -/
theorem length_withRoom_lt (h : c.unclaimed.length ≤ maxUnclaimed) (now : Time) (uri : String) :
    (c.withRoom now uri).unclaimed.length < maxUnclaimed := by
  have hpruned := Nat.le_trans (sublist_prune c now).length_le h
  rcases withRoom_cases c now uri with ⟨⟨hfull, -⟩, heq⟩ | ⟨hfull, heq⟩ <;> rw [heq]
  · have hne : (c.prune now).unclaimed ≠ [] := by
      intro hnil
      rw [hnil] at hfull
      cases hfull
    obtain ⟨o, ho⟩ := Option.ne_none_iff_exists'.mp (mt oldest?_eq_none_iff.mp hne)
    have hlt := length_forget_lt (oldest?_eq_some ho).1
    rw [← evictOldest_eq ho] at hlt
    have hle := (sublist_forget (c.prune now).evictOldest uri).length_le
    omega
  -- Nothing makes room for an entry that takes the place of an earlier one.
  · by_cases hlen : maxUnclaimed ≤ (c.prune now).unclaimed.length
    · have hexists : ∃ y ∈ (c.prune now).unclaimed, y.1 = uri := by
        by_contra hnone
        exact hfull ⟨hlen, fun y hy heq => hnone ⟨y, hy, heq⟩⟩
      obtain ⟨y, hy, rfl⟩ := hexists
      exact Nat.lt_of_lt_of_le (length_forget_lt hy) hpruned
    · have hle := (sublist_forget (c.prune now) uri).length_le
      omega

/-- Which entry goes to make room: one that is too old, the one for the document, or, if that is
not enough, the one that was received first, and no other one. -/
theorem leaves_withRoom (hs : c.Shelved) (hx : x ∈ c.unclaimed)
    (hgone : x ∉ (c.withRoom now uri).unclaimed) :
    ¬ c.IsYoung now x.2 ∨ x.1 = uri ∨
      c.IsFullFor now uri ∧ x ∈ (c.prune now).unclaimed ∧
        (∀ y ∈ (c.prune now).unclaimed, x.2.received ≤ y.2.received) ∧
        ∀ y ∈ (c.prune now).unclaimed, y ≠ x → y ∈ (c.withRoom now uri).unclaimed := by
  refine or_iff_not_imp_left.mpr fun hold => or_iff_not_imp_left.mpr fun huri => ?_
  have hpruned : x ∈ (c.prune now).unclaimed := mem_prune.mpr ⟨hx, not_not.mp hold⟩
  have hshelved := hs.of_sublist (sublist_prune c now)
  rcases withRoom_cases c now uri with ⟨hfull, heq⟩ | ⟨-, heq⟩ <;> rw [heq] at hgone ⊢
  · have hevicted : x ∉ (c.prune now).evictOldest.unclaimed :=
      fun hmem => hgone (mem_forget.mpr ⟨hmem, huri⟩)
    cases ho : oldest? (c.prune now).unclaimed with
    | none =>
      rw [evictOldest, ho] at hevicted
      exact absurd hpruned hevicted
    | some o =>
      obtain ⟨hmem, hle⟩ := oldest?_eq_some ho
      rw [evictOldest_eq ho] at hevicted ⊢
      -- The document of the oldest entry went, and no other entry is for that one.
      obtain rfl : x = o := by
        refine hshelved.eq_of_key hpruned hmem ?_
        by_contra hne
        exact hevicted (mem_forget.mpr ⟨hpruned, hne⟩)
      refine ⟨hfull, hpruned, hle, fun y hy hne => ?_⟩
      have hkey : y.1 ≠ x.1 := fun hkey => hne (hshelved.eq_of_key hy hpruned hkey)
      exact mem_forget.mpr ⟨mem_forget.mpr ⟨hy, hkey⟩, hfull.2 y hy⟩
  · exact absurd (mem_forget.mpr ⟨hpruned, huri⟩) hgone

/-! ## What is left by each operation -/

theorem unclaimed_reject (c : Collector) (uri : String) (version : Option Int) (reason : String) :
    (c.reject uri version reason).1.unclaimed =
      (c.forget (Uri.normalize c.directory uri)).unclaimed := by
  unfold reject
  simp only
  split
  · split <;> rfl
  · rfl

theorem mem_remaining : x ∈ c.remaining now uri ↔
    (x ∈ c.unclaimed ∧ c.IsYoung now x.2) ∧ x.1 ≠ uri := by
  rw [remaining, mem_forget, mem_prune]

/-- What a registration starts from: an entry for the document that is young and covers the version,
or nothing. -/
theorem seedFor_cases (c : Collector) (now : Time) (uri : String) (version : Int) :
    c.seedFor now uri version = .pending ∨ ∃ u v, (uri, u) ∈ c.unclaimed ∧ c.IsYoung now u ∧
      u.version = some v ∧ version ≤ v ∧ c.seedFor now uri version = .published u.diagnostics := by
  unfold seedFor seed
  split
  · rename_i v ds received hu
    split_ifs with hle
    · obtain ⟨hmem, hyoung⟩ := mem_prune.mp (Assoc.mem_of_lookup hu)
      exact .inr ⟨_, v, hmem, hyoung, rfl, hle, rfl⟩
    · exact .inl rfl
  · exact .inl rfl

theorem unclaimed_register (c : Collector) (now : Time) (uri : String) (version : Int)
    (opened : Bool) :
    (c.register now uri version opened).1.unclaimed = c.remaining now uri :=
  unclaimed_of_register (Prod.eta _).symm

/-- What a new waiter sees. -/
theorem snapshot_register (h : c.Grounded) (now : Time) (uri : String) (version : Int)
    (opened : Bool) :
    ((c.register now uri version opened).1.channelOf
      (c.register now uri version opened).2).snapshot = c.seedFor now uri version := by
  have hr := Prod.eta (c.register now uri version opened)
  rcases joins_or_founds hr.symm with ⟨s, hj⟩ | hf
  · rw [hj.channelOf (h hj.found), if_pos (by rw [hj.waiter])]
  · rw [hf.channelOf_self]

/-- What no operation changes. -/
structure Fixes (c c' : Collector) : Prop where
  retention : c'.retention = c.retention
  directory : c'.directory = c.directory

theorem fixes_register (c : Collector) (now : Time) (uri : String) (version : Int)
    (opened : Bool) : Fixes c (c.register now uri version opened).1 := by
  unfold register
  simp only
  split <;> exact ⟨rfl, rfl⟩

theorem fixes_release (c : Collector) (w : Waiter) : Fixes c (c.release w) := by
  unfold release
  split
  · exact ⟨rfl, rfl⟩
  · split_ifs <;> exact ⟨rfl, rfl⟩

theorem fixes_withRoom (c : Collector) (now : Time) (uri : String) :
    Fixes c (c.withRoom now uri) := by
  have hevict : Fixes c (c.prune now).evictOldest := by
    unfold evictOldest
    split <;> exact ⟨rfl, rfl⟩
  rcases withRoom_cases c now uri with ⟨-, heq⟩ | ⟨-, heq⟩ <;> rw [heq]
  · exact ⟨hevict.retention, hevict.directory⟩
  · exact ⟨rfl, rfl⟩

theorem fixes_publish (c : Collector) (now : Time) (p : Wire.Publish) :
    Fixes c (c.publish now p) := by
  rcases publish_cases c now p with ⟨s, -, ⟨-, heq⟩ | ⟨-, heq⟩⟩ | ⟨-, heq⟩ <;> rw [heq]
  · exact ⟨rfl, rfl⟩
  · exact ⟨rfl, rfl⟩
  · have hroom := fixes_withRoom c now (c.subject p)
    exact ⟨hroom.retention, hroom.directory⟩

theorem fixes_reject (c : Collector) (uri : String) (version : Option Int) (reason : String) :
    Fixes c (c.reject uri version reason).1 := by
  unfold reject
  simp only
  split
  · split <;> exact ⟨rfl, rfl⟩
  · exact ⟨rfl, rfl⟩

theorem fixes_disconnect (c : Collector) : Fixes c c.disconnect := by
  have hfold : ∀ (es : List (String × Subscription)) (c : Collector),
      Fixes c (es.foldl (fun c e => c.close e.2.id) c) := by
    intro es
    induction es with
    | nil => exact fun c => ⟨rfl, rfl⟩
    | cons e es ih => exact fun c => ⟨(ih _).retention, (ih _).directory⟩
  have hclosed := hfold c.subscriptions c
  exact ⟨hclosed.retention, hclosed.directory⟩

end Collector

end DiagnosticBroker
