import DiagnosticBroker.Proofs.Instance.Effect
import Mathlib.Data.List.Infix

/-!
# The protocol of a document

Sessions that share a document open and close it in any order. Whatever they do, the backend is told
a legal story: the document is opened, changed with ever greater versions, closed, and opened anew
from version 1. The record of the document counts those that have it open.

The invariant ties the record to the history: the version in the record is the one after all
announcements so far, and without a record the document is closed, unless the backend can no longer
be told anything. It is kept by every effect of an event.

Versions and references have 32 bits each. A version is never greater than the number of openings,
and a document has no more references than its version, so that neither begins anew as long as a
document is opened less than 2³¹ times.

Results:
* `follows_of_reachable`: the record of a document agrees with what was announced of it.
* `version_le_openings`: versions stay below the number of openings.
* `document_protocol`: the announcements come in rounds, and the record counts openings and
  closings.
-/

namespace DiagnosticBroker

/-! ## Counting calls -/

namespace Call

/-- Whether a call opened a document. -/
def isOpening (uri : String) : Call → Bool
  | opened u _ => u = uri
  | closed _ _ => false

/-- Whether a call closed a document. -/
def isClosing (uri : String) : Call → Bool
  | opened _ _ => false
  | closed u _ => u = uri

end Call

/-- How often a document was opened. -/
def openings (uri : String) (calls : List Call) : Nat := calls.countP (Call.isOpening uri)

/-- How often a document was closed. -/
def closings (uri : String) (calls : List Call) : Nat := calls.countP (Call.isClosing uri)

/-- Every closing of a document comes after an opening of its own. -/
def Matched (uri : String) (calls : List Call) : Prop :=
  ∀ earlier, earlier <+: calls → closings uri earlier ≤ openings uri earlier

theorem openings_le_of_front {uri : String} {calls calls' : List Call} (h : calls <+: calls') :
    openings uri calls ≤ openings uri calls' := h.sublist.countP_le

/-- How many openings are left without a closing; a closing with nothing to close does not
count. -/
def balance (uri : String) (calls : List Call) : Nat :=
  calls.foldl (fun n c =>
    if c.isOpening uri then n + 1 else if c.isClosing uri then n - 1 else n) 0

theorem balance_append (uri : String) (calls : List Call) (c : Call) :
    balance uri (calls ++ [c]) =
      if c.isOpening uri then balance uri calls + 1
      else if c.isClosing uri then balance uri calls - 1
      else balance uri calls := by
  simp [balance]

/-- By induction on the calls, from the last one. -/
theorem balance_of_matched {uri : String} {calls : List Call} (h : Matched uri calls) :
    balance uri calls + closings uri calls = openings uri calls := by
  induction calls using List.reverseRecOn with
  | nil => rfl
  | append_singleton calls c ih =>
    have hcalls := ih fun p hp => h p (hp.trans (List.prefix_append _ _))
    have hall := h _ List.prefix_rfl
    rw [balance_append]
    simp only [openings, closings, List.countP_append, List.countP_singleton] at hcalls hall ⊢
    cases c with
    | opened u v =>
      by_cases hu : u = uri
      · simp only [Call.isOpening, Call.isClosing, hu, decide_true, if_true, Bool.false_eq_true,
          if_false]
        omega
      · simp only [Call.isOpening, Call.isClosing, hu, decide_false, Bool.false_eq_true, if_false]
        omega
    | closed u told =>
      by_cases hu : u = uri
      · simp only [Call.isOpening, Call.isClosing, hu, decide_true, if_true, Bool.false_eq_true,
          if_false] at hall ⊢
        omega
      · simp only [Call.isOpening, Call.isClosing, hu, decide_false, Bool.false_eq_true, if_false]
        omega

/-! ## The record of a document -/

namespace Scene

open Announcement (versionAfter versionAfter_append after?_next after?_closed round wholeRound)

variable {P : Scene → Event → Prop} {s s' : Scene} {e : Event} {uri : String}

/-- The record of a document agrees with what was announced of it: `n` is the version that the
backend has, 0 if the document is closed. -/
structure Follows (i : Instance) (uri : String) (n : Nat) : Prop where
  announced : versionAfter (i.announcements uri) = some n
  recorded : ∀ d, i.documents.lookup uri = some d →
    d.version = n ∧ 0 < d.references ∧ d.references ≤ n
  unrecorded : i.documents.lookup uri = none → n = 0 ∨ i.IsCut

variable {i j : Instance} {n : Nat}

theorem Follows.congr (h : Follows i uri n)
    (hd : j.documents.lookup uri = i.documents.lookup uri)
    (ha : j.announcements uri = i.announcements uri) (hc : i.IsCut → j.IsCut) :
    Follows j uri n where
  announced := by rw [ha]; exact h.announced
  recorded := by rw [hd]; exact h.recorded
  unrecorded hn := (h.unrecorded (by rw [← hd]; exact hn)).imp id hc

theorem Follows.references_le (h : Follows i uri n) : i.references uri ≤ n := by
  unfold Instance.references
  cases hd : i.documents.lookup uri with
  | none => exact Nat.zero_le n
  | some d => exact (h.recorded d hd).2.2

/-- An opening announces the version after the present one. -/
theorem Follows.nextVersion (h : Follows i uri n) (hb : n < Word.maxI32) (hs : i.canSend = true) :
    i.nextVersion uri = n + 1 ∧ ((i.documents.lookup uri).isSome = true ↔ n ≠ 0) := by
  unfold Instance.nextVersion
  cases hd : i.documents.lookup uri with
  | none =>
    have hn : n = 0 := (h.unrecorded hd).resolve_right (Instance.not_isCut hs)
    simp [hn]
  | some d =>
    obtain ⟨hv, hpos, hle⟩ := h.recorded d hd
    rw [← hv] at hb ⊢
    refine ⟨Word.nextI32_of_lt hb, ?_⟩
    simp only [Option.isSome_some, true_iff]
    omega

theorem Follows.opens {u : String} {now : Time} {version : Int} {waiter : Waiter}
    (h : Follows i uri n) (hb : uri = u → n < Word.maxI32) (hl : i.Linked)
    (ho : i.Opens now u j version waiter) : Follows j uri (if uri = u then n + 1 else n) := by
  have hann := ho.announcements hl uri
  have hdoc := ho.documents uri
  by_cases hu : uri = u
  · subst hu
    have hb := hb rfl
    have hle := h.references_le
    obtain ⟨hv, hsome⟩ := h.nextVersion hb ho.sends
    have hknown : (i.documents.lookup uri).isSome = decide (n ≠ 0) := by
      rw [Bool.eq_iff_iff, hsome, decide_eq_true_iff]
    rw [if_pos rfl] at hann hdoc ⊢
    constructor
    · rw [hann, versionAfter_append, h.announced, Option.bind_some, ho.version_eq, hv, hknown]
      exact after?_next n
    · intro d hd
      rw [hdoc, Option.some.injEq] at hd
      have hnext : Word.nextU32 (i.references uri) = i.references uri + 1 :=
        Word.nextU32_of_lt (hle.trans_lt (Word.lt_maxU32 (Int.le_of_lt hb)))
      rw [hnext] at hd
      rw [← hd]
      refine ⟨?_, Nat.succ_pos _, Nat.succ_le_succ hle⟩
      rw [ho.version_eq, hv]
      exact (Int.natCast_succ n).symm
    · intro hd
      rw [hdoc] at hd
      cases hd
  · rw [if_neg hu] at hann hdoc ⊢
    rw [List.append_nil] at hann
    exact h.congr hdoc hann ho.cut

/-- A backend that was told of a document is one that was connected. -/
theorem Follows.links_ne_nil (h : Follows i uri n) (hn : 0 < n) : i.links ≠ [] := by
  intro hnil
  have ha : i.announcements uri = [] := by simp [Instance.announcements, Instance.queued, hnil]
  have h' := h.announced
  rw [ha] at h'
  simp only [versionAfter, List.foldlM_nil, Option.pure_def, Option.some.injEq] at h'
  omega

/-- Whoever closes a document that others have open, leaves it to them. -/
theorem Follows.closes_shared {d : OpenDocument} (h : Follows i uri n)
    (hd : i.documents.lookup uri = some d) (hmore : 1 < d.references)
    (hdoc : j.documents.lookup uri = some { d with references := d.references - 1 })
    (ha : j.announcements uri = i.announcements uri) : Follows j uri n where
  announced := by rw [ha]; exact h.announced
  recorded d' hd' := by
    obtain ⟨hv, -, hle⟩ := h.recorded d hd
    rw [hdoc, Option.some.injEq] at hd'
    rw [← hd']
    exact ⟨hv, by simp only; omega, by simp only; omega⟩
  unrecorded hnone := by
    rw [hdoc] at hnone
    cases hnone

/-- The last one to close a document tells the backend, or cannot. -/
theorem Follows.closes_last {told : Bool} (h : Follows i uri n) (hn : 0 < n)
    (hdoc : j.documents.lookup uri = none) (htold : told = i.canSend)
    (hcut : i.IsCut → j.IsCut)
    (ha : j.announcements uri = i.announcements uri ++ if told = true then [.closed] else []) :
    ∃ m ≤ n, Follows j uri m := by
  have hnone : ∀ d, j.documents.lookup uri ≠ some d := by
    intro d hd
    rw [hdoc] at hd
    cases hd
  cases hs : i.canSend with
  | true =>
    rw [htold, hs, if_pos rfl] at ha
    refine ⟨0, Nat.zero_le n, ?_, fun d hd => absurd hd (hnone d), fun _ => .inl rfl⟩
    rw [ha, versionAfter_append, h.announced, Option.bind_some]
    exact after?_closed (by omega)
  | false =>
    rw [htold, hs, if_neg Bool.false_ne_true, List.append_nil] at ha
    refine ⟨n, Nat.le_refl n, ?_, fun d hd => absurd hd (hnone d), fun _ => ?_⟩
    · rw [ha]
      exact h.announced
    · exact .inr (hcut ⟨h.links_ne_nil hn, hs⟩)

theorem Follows.closes {u : String} {told : Bool} (h : Follows i uri n) (hl : i.Linked)
    (hc : i.Closes u j told) : ∃ m ≤ n, Follows j uri m := by
  have hann := hc.announcements hl uri
  have hdoc := hc.documents uri
  by_cases hu : uri = u
  · subst hu
    simp only [true_and] at hann
    rw [if_pos rfl] at hdoc
    cases hd : i.documents.lookup uri with
    | none =>
      have htold : ¬ told = true := by
        rw [hc.told_iff, hd]
        simp
      rw [if_neg htold, List.append_nil] at hann
      exact ⟨n, Nat.le_refl n, h.congr (by rw [hdoc, hd]; rfl) hann hc.cut⟩
    | some d =>
      obtain ⟨-, hpos, hle⟩ := h.recorded d hd
      have hn : 0 < n := hpos.trans_le hle
      rw [hd, Option.bind_some] at hdoc
      by_cases hlast : d.references ≤ 1
      · rw [if_pos hlast] at hdoc
        have htold : told = i.canSend := by
          rw [Bool.eq_iff_iff, hc.told_iff]
          exact ⟨fun h => h.1, fun h => ⟨h, d, hd, hlast⟩⟩
        exact h.closes_last hn hdoc htold hc.cut hann
      · rw [if_neg hlast] at hdoc
        have htold : ¬ told = true := by
          rw [hc.told_iff, hd]
          rintro ⟨-, d', hd', hlast'⟩
          cases hd'
          exact hlast hlast'
        rw [if_neg htold, List.append_nil] at hann
        exact ⟨n, Nat.le_refl n, h.closes_shared hd (by omega) hdoc hann⟩
  · rw [if_neg hu] at hdoc
    rw [if_neg (fun h => hu h.1), List.append_nil] at hann
    exact ⟨n, Nat.le_refl n, h.congr hdoc hann hc.cut⟩

/-- Calls are only added. -/
theorem prefix_of_effect (he : Effect s e s') : s.calls <+: s'.calls := by
  cases he with
  | opens _ _ hc | closes _ _ hc =>
    rw [hc]
    exact List.prefix_append _ _
  | fares _ _ _ hc | stops _ _ _ hc | loses _ _ hc | publishes _ _ _ _ hc | rejects _ _ _ hc
  | refuses _ _ hc | drops _ _ _ _ hc | moves _ _ _ _ _ hc => rw [hc]

/-- Openings that have been few enough after an effect were so before it. -/
theorem openings_of_effect (he : Effect s e s') (hb : openings uri s'.calls ≤ Word.maxI32) :
    openings uri s.calls ≤ Word.maxI32 :=
  Int.le_trans (Int.ofNat_le.mpr (openings_le_of_front (prefix_of_effect he))) hb

/-- Before an opening that is not too many, there is a version left for it. -/
theorem lt_of_opening {u : String} {version : Int} (hn : n ≤ openings uri s.calls)
    (hc : s'.calls = s.calls ++ [.opened u version]) (hb : openings uri s'.calls ≤ Word.maxI32)
    (hu : uri = u) : n < Word.maxI32 := by
  have hcount : openings uri s'.calls = openings uri s.calls + 1 := by
    rw [hc, openings, List.countP_append, List.countP_singleton, if_pos (by simp [Call.isOpening, hu])]
    rfl
  omega

/-- Every effect of an event keeps the record in agreement with the announcements, and a new
version takes an opening. -/
theorem follows_step (hl : s.client.Linked) (hb : openings uri s'.calls ≤ Word.maxI32)
    (h : ∃ n ≤ openings uri s.calls, Follows s.client uri n) (he : Effect s e s') :
    ∃ n ≤ openings uri s'.calls, Follows s'.client uri n := by
  obtain ⟨n, hn, h⟩ := h
  have hsame : s'.client.documents = s.client.documents →
      s'.client.announcements uri = s.client.announcements uri →
      (s.client.IsCut → s'.client.IsCut) → s'.calls = s.calls →
      ∃ n ≤ openings uri s'.calls, Follows s'.client uri n := by
    intro hd ha hcut hc
    exact ⟨n, by rw [hc]; exact hn, h.congr (by rw [hd]) ha hcut⟩
  have hcollector : ∀ c, s'.client = s.client.withCollector c → s'.calls = s.calls →
      ∃ n ≤ openings uri s'.calls, Follows s'.client uri n := by
    intro c hi hc
    exact hsame (by rw [hi]; rfl) (by rw [hi]; rfl) (by rw [hi]; exact id) hc
  cases he with
  | fares hi _ _ hc => exact hsame hi.documents (hi.announcements uri) hi.cut hc
  | stops _ hi _ hc => exact hsame hi.documents (hi.announcements uri) hi.cut hc
  | loses hi _ hc => exact hsame hi.documents (hi.announcements uri) hi.cut hc
  | publishes _ _ hi _ hc => exact hcollector _ hi hc
  | rejects _ hi _ hc => exact hcollector _ hi hc
  | @opens u version _ hi _ hc =>
    refine ⟨_, ?_, h.opens (lt_of_opening hn hc hb) hl hi⟩
    rw [hc, openings, List.countP_append, List.countP_singleton]
    by_cases hu : uri = u
    · subst hu
      simpa [Call.isOpening, openings] using hn
    · rw [if_neg hu]
      exact Nat.le_trans hn (Nat.le_add_right _ _)
  | refuses hi _ hc => exact hsame hi.documents (hi.announcements uri) hi.cut hc
  | closes hi _ hc =>
    obtain ⟨m, hm, hf⟩ := h.closes hl hi
    refine ⟨m, ?_, hf⟩
    rw [hc, openings, List.countP_append]
    exact Nat.le_trans (Nat.le_trans hm hn) (Nat.le_add_right _ _)
  | drops _ _ hi _ hc => exact hcollector _ hi hc
  | moves _ _ _ hi _ hc => exact hsame (by rw [hi]) (by rw [hi]) (by rw [hi]; exact id) hc

theorem follows_of_reachable (hs : Reachable P s) (hb : openings uri s.calls ≤ Word.maxI32) :
    ∃ n ≤ openings uri s.calls, Follows s.client uri n := by
  refine hs.induct (I := fun s => openings uri s.calls ≤ Word.maxI32 →
    ∃ n ≤ openings uri s.calls, Follows s.client uri n)
    (fun _ _ _ _ _ _ _ _ => ?_) (fun s e s' hr ih _ he hb => ?_) hb
  · exact ⟨0, by simp, rfl, fun d hd => by simp [new, Instance.new] at hd, fun _ => .inl rfl⟩
  · exact follows_step (wired_of_reachable hr).linked hb (ih (openings_of_effect he hb)) he

/-- Versions are never greater than the number of openings. -/
theorem version_le_openings (hs : Reachable P s) (hb : openings uri s.calls ≤ Word.maxI32)
    {d : OpenDocument} (hd : s.client.documents.lookup uri = some d) :
    d.version ≤ openings uri s.calls := by
  obtain ⟨n, hn, hf⟩ := follows_of_reachable hs hb
  rw [(hf.recorded d hd).1]
  exact_mod_cast hn

/-! ## The references of a document -/

/-- Every effect of an event keeps count of the openings and closings. -/
theorem references_step (hb : s.client.references uri < Word.maxU32)
    (h : s.client.references uri = balance uri s.calls) (he : Effect s e s') :
    s'.client.references uri = balance uri s'.calls := by
  cases he with
  | fares hi _ _ hc => rw [Instance.references_congr hi.documents, hc, h]
  | stops _ hi _ hc => rw [Instance.references_congr hi.documents, hc, h]
  | loses hi _ hc => rw [Instance.references_congr hi.documents, hc, h]
  | publishes _ _ hi _ hc => rw [hi, hc, ← h]; rfl
  | rejects _ hi _ hc => rw [hi, hc, ← h]; rfl
  | @opens u version waiter hi _ hc =>
    rw [hc, balance_append, ← h, hi.references hb]
    by_cases hu : uri = u
    · simp [Call.isOpening, hu]
    · simp [Call.isOpening, Call.isClosing, hu, Ne.symm hu]
  | refuses hi _ hc => rw [Instance.references_congr hi.documents, hc, h]
  | @closes u told hi _ hc =>
    rw [hc, balance_append, ← h, hi.references]
    by_cases hu : uri = u
    · simp [Call.isOpening, Call.isClosing, hu]
    · simp [Call.isOpening, Call.isClosing, hu, Ne.symm hu]
  | drops _ _ hi _ hc => rw [hi, hc, ← h]; rfl
  | moves _ _ _ hi _ hc => rw [hi, hc, h]

theorem references_of_reachable (hs : Reachable P s) (hb : openings uri s.calls ≤ Word.maxI32) :
    s.client.references uri = balance uri s.calls := by
  refine hs.induct (I := fun s => openings uri s.calls ≤ Word.maxI32 →
    s.client.references uri = balance uri s.calls) (fun _ _ _ _ _ _ _ _ => rfl)
    (fun s e s' hr ih _ he hb => ?_) hb
  have hbefore := openings_of_effect he hb
  obtain ⟨n, hn, hf⟩ := follows_of_reachable hr hbefore
  have hle : s.client.references uri ≤ openings uri s.calls := hf.references_le.trans hn
  exact references_step (hle.trans_lt (Word.lt_maxU32 hbefore)) (ih hbefore) he

/-- Somebody has a document open exactly if there is a record of it. -/
theorem Follows.isSome_iff (h : Follows i uri n) :
    (i.documents.lookup uri).isSome = true ↔ 0 < i.references uri := by
  unfold Instance.references
  cases hd : i.documents.lookup uri with
  | none => simp
  | some d => simpa using (h.recorded d hd).2.1

/-! ## The protocol -/

/-- **Document protocol.** What a backend is told of a document comes in rounds with versions from 1
on, of which the last one may not be over. If no document is closed more often than it was opened,
then it is on record exactly while it was opened more often, and the record holds the difference. An
opening succeeds if frames can be queued, and returns the version that its own frame carries. A
closing tells the backend exactly if it is the last one. All this is so as long as the openings are no
more than the versions that 32 bits hold. -/
theorem document_protocol (hs : Reachable P s) (uri : String) (hm : Matched uri s.calls)
    (hb : openings uri s.calls ≤ Word.maxI32) :
    (∃ (rounds : List Nat) (n : Nat), (∀ m ∈ rounds, 0 < m) ∧
      s.client.announcements uri = rounds.flatMap wholeRound ++ round n) ∧
    ((s.client.documents.lookup uri).isSome = true ↔
      closings uri s.calls < openings uri s.calls) ∧
    s.client.references uri = openings uri s.calls - closings uri s.calls ∧
    (s.client.canSend = true → ∀ languageId text, ∃ j version waiter,
      s.client.openDocument s.now uri languageId text = (j, .ok (version, waiter)) ∧
        j.announcements uri = s.client.announcements uri ++
          [.next version (s.client.documents.lookup uri).isSome]) ∧
    (s.client.canSend = true → ∀ j told, s.client.closeDocument uri = (j, told) →
      (told = true ↔ openings uri s.calls = closings uri s.calls + 1)) := by
  have hl := (wired_of_reachable hs).linked
  have hcount : s.client.references uri + closings uri s.calls = openings uri s.calls := by
    rw [references_of_reachable hs hb]
    exact balance_of_matched hm
  obtain ⟨n, -, hf⟩ := follows_of_reachable hs hb
  have hpos := hf.isSome_iff
  refine ⟨?_, ?_, by omega, fun hsend languageId text => ?_, fun hsend j told hc => ?_⟩
  · obtain ⟨rounds, hr, ha⟩ := Announcement.eq_rounds_of_versionAfter hf.announced
    exact ⟨rounds, n, hr, ha⟩
  · rw [hpos]
    omega
  · obtain ⟨j, hj, ho⟩ := Instance.opens_of_canSend hsend s.now uri languageId text
    exact ⟨j, _, _, hj, by rw [ho.announcements hl, if_pos rfl]⟩
  · rw [(Instance.closes_of_closeDocument hc).told_iff]
    have hlast : (∃ d, s.client.documents.lookup uri = some d ∧ d.references ≤ 1) ↔
        s.client.references uri = 1 := by
      unfold Instance.references
      cases hd : s.client.documents.lookup uri with
      | none => simp
      | some d =>
        have hr := (hf.recorded d hd).2.1
        simp only [Option.some.injEq, exists_eq_left']
        omega
    rw [hlast]
    constructor
    · rintro ⟨-, h⟩
      omega
    · intro h
      exact ⟨hsend, by omega⟩

/-- Two sessions share a document, and the first of them closes it. -/
def sharing : List Event :=
  connecting ++ [.opens "a" "python" "x", .opens "a" "python" "y", .closes "a"]

theorem document_protocol_sharing :
    ∃ s, sample.run sharing = some s ∧ Matched "a" s.calls ∧ s.client.references "a" = 1 := by
  have hrun : (sample.run sharing).map (·.calls) =
      some [.opened "a" 1, .opened "a" 2, .closed "a" false] := by rfl
  obtain ⟨s, hs, hcalls⟩ := Option.map_eq_some_iff.mp hrun
  have hreach : Reachable (fun _ _ => True) s :=
    Reachable.of_run (.new _ _ _ _ _ _ _) (fun _ _ _ => trivial) hs
  have hm : Matched "a" s.calls := by
    intro earlier h
    rw [hcalls, ← List.mem_inits] at h
    revert earlier
    decide
  have hb : openings "a" s.calls ≤ Word.maxI32 := by
    rw [hcalls]
    decide
  refine ⟨s, hs, hm, ?_⟩
  rw [(document_protocol hreach "a" hm hb).2.2.1, hcalls]
  rfl

end Scene

end DiagnosticBroker
