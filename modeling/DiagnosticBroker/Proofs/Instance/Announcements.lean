import DiagnosticBroker.Instance.Basic
import Mathlib.Data.List.Induction

/-!
# What a backend is told of a document

The frames about one document are read back from everything that is queued for a backend. They
follow the protocol if they come in rounds, each of which opens the document, changes it any number
of times, and closes it, with the versions 1, 2, 3 and so on. `Announcement.versionAfter` goes
through such frames, and keeps the version that the backend has now.

Results:
* `read?_announcement`: a frame that announces a version says just that.
* `eq_rounds_of_versionAfter`: frames that follow the protocol come in rounds.
* `lt_or_reopened_of_versionAfter`, `restarts_of_le`: a later text has a greater version, unless the
  document is opened anew in between.
-/

namespace DiagnosticBroker

/-! ## Frames about documents -/

/-- What a frame says of a document. -/
inductive Announcement where
  | opened (version : Int)
  | changed (version : Int)
  | closed
deriving DecidableEq, Repr

namespace Announcement

/-- The version of the document that the backend has from now on. -/
def version? : Announcement → Option Int
  | opened v => some v
  | changed v => some v
  | closed => none

/-- The integer that a JSON value is. -/
def integer? : Json → Option Int
  | .num (.int v) => some v
  | _ => none

/-- The document that a frame is about, and what it says of it. -/
def read? : Wire.Message → Option (String × Announcement)
  | .notification n => do
    let document ← n.params.bind (Json.get? "textDocument")
    let uri ← (document.get? "uri").bind Json.str?
    let version := (document.get? "version").bind integer?
    if n.method = Wire.DidOpen.method then version.map fun v => (uri, opened v)
    else if n.method = Wire.DidChange.method then version.map fun v => (uri, changed v)
    else if n.method = Wire.DidClose.method then some (uri, closed)
    else none
  | _ => none

/-- What a frame says of one document. -/
def about? (uri : String) (m : Wire.Message) : Option Announcement :=
  match read? m with
  | some (u, a) => if u = uri then some a else none
  | none => none

/-- The next version of a document is announced by opening it if it is not open, and else by
changing it. -/
def next (version : Int) (isOpen : Bool) : Announcement :=
  if isOpen then changed version else opened version

@[simp]
theorem version?_next (version : Int) (isOpen : Bool) :
    (next version isOpen).version? = some version := by
  cases isOpen <;> rfl

theorem read?_announcement (uri languageId text : String) (version : Int) (isOpen : Bool) :
    read? (Instance.announcement uri languageId text version isOpen) =
      some (uri, next version isOpen) := by
  cases isOpen
  · rfl
  · rfl

theorem read?_closing (uri : String) :
    read? (.notification (.new Wire.DidClose.method (some (Wire.DidClose.mk uri).encode))) =
      some (uri, closed) := by
  simp [read?, Wire.Notification.new, Wire.DidClose.encode, Wire.DidClose.method,
    Wire.DidChange.method, Wire.DidOpen.method, Json.get?, Json.str?]

theorem read?_notification_of_ne {method : String} (params : Option Json)
    (ho : method ≠ Wire.DidOpen.method) (hc : method ≠ Wire.DidChange.method)
    (hd : method ≠ Wire.DidClose.method) :
    read? (.notification (.new method params)) = none := by
  simp [read?, Wire.Notification.new, ho, hc, hd]

/-! ## The protocol -/

/-- The version that the backend has after an announcement, if the announcement is in order. The
version 0 stands for a document that is not open. -/
def after? : Nat → Announcement → Option Nat
  | 0, opened v => if v = 1 then some 1 else none
  | n + 1, changed v => if v = n + 2 then some (n + 2) else none
  | _ + 1, closed => some 0
  | _, _ => none

/-- The version that the backend has after some announcements, if all of them are in order. -/
def versionAfter (as : List Announcement) : Option Nat := as.foldlM after? 0

/-- The announcements of the first `n` versions of a document. -/
def round (n : Nat) : List Announcement :=
  (List.range n).map fun k : Nat => next (k + 1) (k ≠ 0)

/-- All announcements from opening a document to closing it, if it has `n` versions. -/
def wholeRound (n : Nat) : List Announcement := round n ++ [closed]

theorem round_succ (n : Nat) : round (n + 1) = round n ++ [next (n + 1) (n ≠ 0)] := by
  simp [round, List.range_succ]

theorem versionAfter_append (as : List Announcement) (a : Announcement) :
    versionAfter (as ++ [a]) = (versionAfter as).bind fun n => after? n a := by
  simp only [versionAfter, List.foldlM_append, List.foldlM_cons, List.foldlM_nil]
  cases as.foldlM after? 0 <;> simp

/-- The next version is always in order. -/
theorem after?_next (n : Nat) : after? n (next (n + 1) (n ≠ 0)) = some (n + 1) := by
  cases n with
  | zero => simp [next, after?]
  | succ n => simp [next, after?]; omega

theorem after?_closed {n : Nat} (hn : n ≠ 0) : after? n closed = some 0 := by
  cases n with
  | zero => exact absurd rfl hn
  | succ n => rfl

/-- An announcement that is in order is the one of the next version, or closes the document. -/
theorem eq_of_after? {m n : Nat} {a : Announcement} (h : after? m a = some n) :
    (n = m + 1 ∧ a = next (m + 1) (m ≠ 0)) ∨ (n = 0 ∧ m ≠ 0 ∧ a = closed) := by
  cases m with
  | zero =>
    cases a with
    | opened v =>
      simp only [after?, Option.ite_none_right_eq_some, Option.some.injEq] at h
      left
      exact ⟨h.2.symm, by simp [next, h.1]⟩
    | changed v | closed => simp [after?] at h
  | succ m =>
    cases a with
    | opened v => simp [after?] at h
    | changed v =>
      simp only [after?, Option.ite_none_right_eq_some, Option.some.injEq] at h
      left
      refine ⟨h.2.symm, ?_⟩
      simp only [next, h.1]
      simp
      omega
    | closed =>
      simp only [after?, Option.some.injEq] at h
      exact .inr ⟨h.symm, by omega, rfl⟩

/-- **Rounds.** Announcements that are in order come in whole rounds and a part of one. -/
theorem eq_rounds_of_versionAfter {as : List Announcement} {n : Nat}
    (h : versionAfter as = some n) :
    ∃ rounds : List Nat, (∀ m ∈ rounds, 0 < m) ∧ as = rounds.flatMap wholeRound ++ round n := by
  induction as using List.reverseRecOn generalizing n with
  | nil =>
    simp only [versionAfter, List.foldlM_nil, Option.pure_def, Option.some.injEq] at h
    subst h
    exact ⟨[], by simp, by simp [round]⟩
  | append_singleton as a ih =>
    rw [versionAfter_append] at h
    obtain ⟨m, hm, ha⟩ := Option.bind_eq_some_iff.mp h
    obtain ⟨rounds, hpos, has⟩ := ih hm
    rcases eq_of_after? ha with ⟨rfl, rfl⟩ | ⟨rfl, hm0, rfl⟩
    · exact ⟨rounds, hpos, by rw [has, round_succ, List.append_assoc]⟩
    · refine ⟨rounds ++ [m], fun k hk => ?_, ?_⟩
      · rcases List.mem_append.mp hk with hk | hk
        · exact hpos k hk
        · rw [List.mem_singleton.mp hk]
          omega
      · simp [has, wholeRound, round]

/-- By induction on the announcements that follow: the version only grows, until one opens the
document anew. -/
theorem lt_or_reopened {as : List Announcement} {m n j : Nat} {b : Announcement} {w : Int}
    (h : as.foldlM after? m = some n) (hb : as[j]? = some b) (hw : b.version? = some w) :
    (m : Int) < w ∨ ∃ t ≤ j, ∃ u, as[t]? = some (opened u) := by
  induction as generalizing m j with
  | nil => simp at hb
  | cons a as ih =>
    rw [List.foldlM_cons] at h
    obtain ⟨k, hk, hrest⟩ := Option.bind_eq_some_iff.mp h
    rcases eq_of_after? hk with ⟨rfl, rfl⟩ | ⟨rfl, -, rfl⟩
    · cases j with
      | zero =>
        simp only [List.getElem?_cons_zero, Option.some.injEq] at hb
        subst hb
        simp only [version?_next, Option.some.injEq] at hw
        omega
      | succ j =>
        rcases ih hrest hb with hlt | ⟨t, ht, u, hu⟩
        · left
          omega
        · exact .inr ⟨t + 1, by omega, u, hu⟩
    · cases j with
      | zero =>
        simp only [List.getElem?_cons_zero, Option.some.injEq] at hb
        subst hb
        simp [version?] at hw
      | succ j =>
        -- What follows a closed document opens it anew.
        cases as with
        | nil => simp at hb
        | cons a as =>
          rw [List.foldlM_cons] at hrest
          obtain ⟨k, hk, -⟩ := Option.bind_eq_some_iff.mp hrest
          rcases eq_of_after? hk with ⟨rfl, rfl⟩ | ⟨-, h0, -⟩
          · exact .inr ⟨1, by omega, 1, by simp [next]⟩
          · exact absurd rfl h0

/-! ## Texts -/

/-- The announcement with an index brings a text, and its version. -/
def Carries (as : List Announcement) (k : Nat) (v : Int) : Prop :=
  ∃ a, as[k]? = some a ∧ a.version? = some v

/-- The text with an index is the last one so far. -/
structure IsLast (as : List Announcement) (k : Nat) (v : Int) : Prop where
  carries : Carries as k v
  le : ∀ i w, Carries as i w → i ≤ k

/-- After the text `k` the document was opened anew, and from some text on that is not before
`position` it had a version of at most `v`. -/
def Restarts (as : List Announcement) (k position : Nat) (v : Int) : Prop :=
  ∃ t j w, k < t ∧ t ≤ j ∧ position ≤ j ∧ (∃ u, as[t]? = some (opened u)) ∧ Carries as j w ∧ w ≤ v

variable {as : List Announcement} {a : Announcement} {n k j position : Nat} {v w : Int}

theorem Carries.lt (h : Carries as k v) : k < as.length := by
  obtain ⟨a, ha, -⟩ := h
  exact (List.getElem?_eq_some_iff.mp ha).1

theorem Carries.eq (h : Carries as k v) (h' : Carries as k w) : v = w := by
  obtain ⟨a, ha, hv⟩ := h
  obtain ⟨b, hb, hw⟩ := h'
  rw [ha, Option.some.injEq] at hb
  rw [hb, hw, Option.some.injEq] at hv
  exact hv.symm

theorem Carries.append (h : Carries as k v) (bs : List Announcement) : Carries (as ++ bs) k v := by
  obtain ⟨a, ha, hv⟩ := h
  exact ⟨a, by rw [List.getElem?_append_left (List.getElem?_eq_some_iff.mp ha).1, ha], hv⟩

theorem carries_append_self (as : List Announcement) (hv : a.version? = some v) :
    Carries (as ++ [a]) as.length v :=
  ⟨a, List.getElem?_concat_length, hv⟩

theorem isLast_append (as : List Announcement) (hv : a.version? = some v) :
    IsLast (as ++ [a]) as.length v where
  carries := carries_append_self as hv
  le i w hi := by
    have hlt := hi.lt
    rw [List.length_append, List.length_singleton] at hlt
    omega

/-- Closing a document brings no text. -/
theorem IsLast.append_closed (h : IsLast as k v) : IsLast (as ++ [closed]) k v where
  carries := h.carries.append _
  le i w hi := by
    obtain ⟨b, hb, hw⟩ := hi
    rcases Nat.lt_or_ge i as.length with hlt | hge
    · rw [List.getElem?_append_left hlt] at hb
      exact h.le i w ⟨b, hb, hw⟩
    · rw [List.getElem?_append_right hge] at hb
      rw [List.mem_singleton.mp (List.mem_of_getElem? hb)] at hw
      cases hw

theorem IsLast.eq (h : IsLast as k v) (h' : IsLast as j w) : v = w := by
  have hkj : k = j := Nat.le_antisymm (h'.le k v h.carries) (h.le j w h'.carries)
  subst hkj
  exact h.carries.eq h'.carries

theorem Restarts.append (h : Restarts as k position v) (bs : List Announcement) :
    Restarts (as ++ bs) k position v := by
  obtain ⟨t, j, w, hkt, htj, hpj, ⟨u, hu⟩, hj, hw⟩ := h
  refine ⟨t, j, w, hkt, htj, hpj, ⟨u, ?_⟩, hj.append bs, hw⟩
  rw [List.getElem?_append_left (List.getElem?_eq_some_iff.mp hu).1, hu]

/-- The version that the backend has is that of the last text. -/
theorem isLast_of_versionAfter (h : versionAfter as = some n) (hn : n ≠ 0) :
    ∃ k, IsLast as k n := by
  induction as using List.reverseRecOn with
  | nil =>
    simp only [versionAfter, List.foldlM_nil, Option.pure_def, Option.some.injEq] at h
    exact absurd h.symm hn
  | append_singleton as a ih =>
    rw [versionAfter_append] at h
    obtain ⟨m, -, ha⟩ := Option.bind_eq_some_iff.mp h
    rcases eq_of_after? ha with ⟨rfl, rfl⟩ | ⟨rfl, -, -⟩
    · exact ⟨as.length, isLast_append as (by simp)⟩
    · exact absurd rfl hn

/-- What comes after a text goes on from its version. -/
theorem versionAfter_take (h : versionAfter as = some n) (hk : Carries as k v) :
    ∃ m : Nat, (m : Int) = v ∧ (as.drop (k + 1)).foldlM after? m = some n := by
  obtain ⟨a, ha, hv⟩ := hk
  have hsplit : as = as.take (k + 1) ++ as.drop (k + 1) := (List.take_append_drop _ _).symm
  rw [versionAfter, hsplit, List.foldlM_append] at h
  obtain ⟨m, hm, hrest⟩ := Option.bind_eq_some_iff.mp h
  refine ⟨m, ?_, hrest⟩
  rw [List.take_add_one, ha] at hm
  change versionAfter (as.take k ++ [a]) = some m at hm
  rw [versionAfter_append] at hm
  obtain ⟨i, -, hi⟩ := Option.bind_eq_some_iff.mp hm
  rcases eq_of_after? hi with ⟨rfl, rfl⟩ | ⟨-, -, rfl⟩
  · simpa using hv
  · simp [version?] at hv

/-- Of two texts the later one has the greater version, unless the document was opened anew in
between. -/
theorem lt_or_reopened_of_versionAfter (h : versionAfter as = some n) (hkj : k < j)
    (hk : Carries as k v) (hj : Carries as j w) :
    v < w ∨ ∃ t, k < t ∧ t ≤ j ∧ ∃ u, as[t]? = some (opened u) := by
  obtain ⟨m, rfl, hrest⟩ := versionAfter_take h hk
  obtain ⟨b, hb, hw⟩ := hj
  have hb' : (as.drop (k + 1))[j - (k + 1)]? = some b := by
    rw [List.getElem?_drop, ← hb]
    congr 1
    omega
  rcases lt_or_reopened hrest hb' hw with hlt | ⟨t, ht, u, hu⟩
  · exact .inl hlt
  · rw [List.getElem?_drop] at hu
    exact .inr ⟨k + 1 + t, by omega, by omega, u, hu⟩

/-- A label that is not smaller than a later version comes from before a new opening. -/
theorem restarts_of_le (h : versionAfter as = some n) (hk : Carries as k v)
    (hj : Carries as j w) (hle : w ≤ v) (hp : position ≤ j) (hlt : k < position) :
    Restarts as k position v := by
  have hkj : k < j := Nat.lt_of_lt_of_le hlt hp
  rcases lt_or_reopened_of_versionAfter h hkj hk hj with hvw | ⟨t, hkt, htj, hu⟩
  · omega
  · exact ⟨t, j, w, hkt, htj, hp, hu, hj, hle⟩

end Announcement

end DiagnosticBroker
