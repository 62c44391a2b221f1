import DiagnosticBroker.Proofs.FileTree.Places
import DiagnosticBroker.Sandbox
import Mathlib

/-!
# What the allow list lets through

A path is resolved name by name, and on the way every place that is kept is *settled*: none of the
places above it leads anywhere else. That is so at every exit of the resolution: after a name that
exists, after one that does not, after a link to something missing was followed, after `..`, and
when no more links are followed. So a place that is let through lies below an allowed directory and
is not merely a link to somewhere else.

One thing escapes this: the system opens entries deep down whose places have too long a text to be
asked for. A link to one of them looks like a link to something missing, and the last of forty such
links is let through as it stands.

Results:
* `settled_resolve`: whatever a path is resolved to, is settled.
* `resolve_of_canonicalize`: a path that leads somewhere is resolved to that place.
* `authorize_below_allowed`: which places are let through, and what is told of the others.
-/

namespace DiagnosticBroker.Sandbox

open FileTree (IsName IsReal pieces nameable maxLinks maxPathBytes)

variable {t : FileTree}

/-! ## Settled places -/

/-- No part of the way to a place leads anywhere else: a place above it, or the place itself, is
where it seems to be, or cannot be asked for. -/
structure Settled (t : FileTree) (p : Place) : Prop where
  isName : ∀ n ∈ p, IsName n
  stays : ∀ q, q <+: p → ∀ c, t.realPlace q = .ok c → c = q

theorem Settled.of_prefix {p q : Place} (h : Settled t p) (hq : q <+: p) : Settled t q :=
  ⟨fun n hn => h.isName n (hq.subset hn), fun r hr => h.stays r (hr.trans hq)⟩

theorem realPlace_of_isReal {p : Place} (h : t.IsReal nameable p) : t.realPlace p = .ok p := by
  have h' : t.IsReal nameable ([] ++ p) := h
  exact FileTree.walk_of_isReal h'

theorem Settled.of_isReal {p : Place} (h : t.IsReal nameable p) : Settled t p := by
  refine ⟨h.isName, fun q hq c hc => ?_⟩
  rw [realPlace_of_isReal (h.of_prefix hq)] at hc
  cases hc
  rfl

/-- A name that cannot be followed is kept as it is written. -/
theorem Settled.append_missing {p : Place} {n : String} {e : IoFault} (h : Settled t p)
    (hn : IsName n) (hm : t.realPlace (p ++ [n]) = .error e) : Settled t (p ++ [n]) := by
  constructor
  · intro m hmem
    rcases List.mem_append.mp hmem with hmem | hmem
    · exact h.isName m hmem
    · rw [List.mem_singleton.mp hmem]
      exact hn
  · intro q hq c hc
    rcases List.prefix_concat_iff.mp hq with rfl | hq
    · rw [hm] at hc
      cases hc
    · exact h.stays q hq c hc

theorem isReal_of_realPlace {ps : List String} {p : Place} (hps : ∀ n ∈ ps, '/' ∉ n.toList)
    (h : t.realPlace ps = .ok p) : t.IsReal nameable p :=
  FileTree.isReal_of_walk hps (FileTree.isReal_nil t nameable) h

/-! ## Resolving -/

/-- Following links only leads to settled places. -/
def Follows (t : FileTree) (follow : Place → String → Option Place) : Prop :=
  ∀ p n q, Settled t p → IsName n → follow p n = some q → Settled t q

theorem settled_resolveStep {follow : Place → String → Option Place} (hf : Follows t follow)
    {p : Place} {piece : String} (hp : Settled t p) (hs : '/' ∉ piece.toList) :
    Settled t (resolveStep t follow p piece) := by
  unfold resolveStep
  split_ifs with hb hd
  · exact hp
  · exact hp.of_prefix (List.dropLast_prefix p)
  · have hn : IsName piece := ⟨hs, by simpa using hb, hd⟩
    have hps : ∀ n ∈ p ++ [piece], '/' ∉ n.toList := by
      intro n hmem
      rcases List.mem_append.mp hmem with hmem | hmem
      · exact (hp.isName n hmem).noSlash
      · rw [List.mem_singleton.mp hmem]
        exact hs
    cases hr : t.realPlace (p ++ [piece]) with
    | ok q => exact .of_isReal (isReal_of_realPlace hps hr)
    | error e =>
      cases hq : follow p piece with
      | none => exact hp.append_missing hn hr
      | some q => exact hf p piece q hp hn hq

theorem settled_resolvePieces {follow : Place → String → Option Place} (hf : Follows t follow)
    {ps : List String} (hps : ∀ n ∈ ps, '/' ∉ n.toList) :
    Settled t (resolvePieces t follow ps) := by
  unfold resolvePieces
  cases hr : t.realPlace ps with
  | ok p => exact .of_isReal (isReal_of_realPlace hps hr)
  | error e =>
    have hfold : ∀ (qs : List String) (p : Place), (∀ n ∈ qs, '/' ∉ n.toList) → Settled t p →
        Settled t (qs.foldl (resolveStep t follow) p) := by
      intro qs
      induction qs with
      | nil => intro p _ hp; exact hp
      | cons n qs ih =>
        intro p hqs hp
        exact ih _ (fun m hm => hqs m (List.mem_cons_of_mem _ hm))
          (settled_resolveStep hf hp (hqs n (by simp)))
    exact hfold ps [] hps (.of_isReal (FileTree.isReal_nil t nameable))

/-- By induction on the links that may still be followed. -/
theorem follows_followDangling (t : FileTree) (hops : Nat) : Follows t (followDangling t hops) := by
  induction hops with
  | zero => intro p n q _ _ h; simp [followDangling] at h
  | succ hops ih =>
    intro p n q hp hn h
    rw [followDangling] at h
    cases hl : t.linkAt? (p ++ [n]) with
    | none => simp [hl] at h
    | some target =>
      simp only [hl, Option.some.injEq] at h
      subst h
      refine settled_resolvePieces ih fun m hm => ?_
      rcases List.mem_append.mp hm with hm | hm
      · unfold FileTree.linkStart at hm
        split_ifs at hm
        · cases hm
        · exact (hp.isName m hm).noSlash
      · exact FileTree.pieces_noSlash hm

theorem settled_resolve (t : FileTree) (cwd path : String) : Settled t (resolve t cwd path) :=
  settled_resolvePieces (follows_followDangling t maxHops) fun _ => FileTree.pieces_noSlash

/-- A path that leads somewhere is resolved to that place. -/
theorem resolve_of_canonicalize {cwd path : String} {c : Place}
    (h : t.canonicalize cwd path = .ok c) :
    resolve t cwd path = c ∧ t.IsReal nameable c := by
  unfold FileTree.canonicalize at h
  split_ifs at h
  refine ⟨?_, isReal_of_realPlace (fun _ => FileTree.pieces_noSlash) h⟩
  rw [resolve, resolvePieces, h]

/-! ## Asking for a resolved place again -/

/-- The text of a place leads the way that its names lead. -/
theorem walk_pieces_ofNames (t : FileTree) (reach : FileTree.Reach) {p : Place}
    (hp : ∀ n ∈ p, IsName n) :
    t.walk reach maxLinks [] (pieces (Path.ofNames p)) = t.walk reach maxLinks [] p := by
  have hroot : t.isDirectory [] = true := rfl
  by_cases hnil : p = []
  · subst hnil
    rw [FileTree.pieces_ofNames_nil, FileTree.walk_blank _ _ _ hroot rfl,
      FileTree.walk_blank _ _ _ hroot rfl]
  · rw [FileTree.pieces_ofNames hnil fun n hn => (hp n hn).noSlash,
      FileTree.walk_blank _ _ _ hroot rfl]

theorem ofNames_isEmpty (p : Place) : (Path.ofNames p).isEmpty = false := by
  simp [Path.ofNames]

theorem canonicalize_ofNames {cwd : String} {p : Place} (hp : ∀ n ∈ p, IsName n)
    (hz : (Path.ofNames p).contains '\x00' = false) :
    t.canonicalize cwd (Path.ofNames p) = t.realPlace p := by
  rw [FileTree.canonicalize, ofNames_isEmpty, hz, FileTree.join_ofNames]
  exact walk_pieces_ofNames t nameable hp

/-- What can be asked for exists. -/
theorem pathExists_of_isReal (cwd : String) {p : Place} (h : t.IsReal nameable p) :
    t.pathExists cwd (Path.ofNames p) = true := by
  have hz : (Path.ofNames p).contains '\x00' = false := by
    refine FileTree.ofNames_noNul fun n hn => ?_
    obtain ⟨q, hq⟩ := h.stepsTo_of_mem hn
    exact hq.noNul
  have hshort : ¬ maxPathBytes < (Path.ofNames p).utf8ByteSize := by
    by_cases hnil : p = []
    · subst hnil
      decide
    · simpa [nameable] using h.near hnil
  have h' : t.IsReal FileTree.anywhere ([] ++ p) := h.anywhere
  rw [FileTree.pathExists, FileTree.locate, ofNames_isEmpty, hz, if_neg hshort,
    FileTree.join_ofNames, walk_pieces_ofNames t _ h.isName, FileTree.walk_of_isReal h']
  rfl

/-! ## The allow list -/

/-- Whether a place lies below an allowed directory: the directory is on the way to it, and another
place. -/
def Covers (s : Sandbox) (p : Place) : Prop := ∃ d ∈ s.allowed, d <+: p ∧ p ≠ d

theorem contains_iff_covers (s : Sandbox) (p : Place) : s.contains p = true ↔ s.Covers p := by
  simp [contains, isBelow, Covers, and_comm]

/-- A settled place that exists is where it seems to be. It can only not be asked for, if an entry
on the way has too long a text. -/
theorem Settled.canonicalize {cwd : String} {p : Place} (h : Settled t p)
    (he : t.pathExists cwd (Path.ofNames p) = true) :
    t.canonicalize cwd (Path.ofNames p) = .ok p ∨
      t.canonicalize cwd (Path.ofNames p) = .error .nameTooLong ∧
        ∃ q, (t.entry? q).isSome ∧ maxPathBytes < (Path.ofNames q).utf8ByteSize := by
  have hl : ∃ q, t.locate cwd (Path.ofNames p) = .ok q := by
    unfold FileTree.pathExists at he
    cases hq : t.locate cwd (Path.ofNames p) with
    | ok q => exact ⟨q, rfl⟩
    | error e => rw [hq] at he; cases he
  obtain ⟨q, hq⟩ := hl
  unfold FileTree.locate at hq
  split_ifs at hq with _ hz _
  rw [FileTree.join_ofNames, walk_pieces_ofNames t _ h.isName] at hq
  rw [canonicalize_ofNames h.isName (by simpa using hz)]
  rcases FileTree.walk_reach nameable hq with hr | ⟨hr, r, hs, hlong⟩
  · left
    rw [FileTree.realPlace, hr, h.stays p List.prefix_rfl q hr]
  · exact .inr ⟨hr, r, hs, by simpa [nameable] using hlong⟩

/-- **Containment.** A place that is let through exists and lies below an allowed directory. It is
where it seems to be, unless some entry of the tree has a place with too long a text and the place
that is let through cannot be asked for, for that reason. A path that leads somewhere is let through
exactly if the place it leads to lies below an allowed directory. And only of places below an
allowed directory it is ever told that they do not exist. -/
theorem authorize_below_allowed (s : Sandbox) (t : FileTree) (cwd path : String) :
    (∀ r, s.authorize t cwd path = .ok r →
      t.pathExists cwd (Path.ofNames r) = true ∧ s.Covers r ∧
        (t.canonicalize cwd (Path.ofNames r) = .ok r ∨
          t.canonicalize cwd (Path.ofNames r) = .error .nameTooLong ∧
            ∃ q, (t.entry? q).isSome ∧ maxPathBytes < (Path.ofNames q).utf8ByteSize)) ∧
    (∀ c, t.canonicalize cwd path = .ok c →
      (s.Covers c → s.authorize t cwd path = .ok c) ∧
        (¬ s.Covers c → s.authorize t cwd path = .error (.notAllowed (Path.ofNames c)))) ∧
    (∀ text, s.authorize t cwd path = .error (.notFound text) →
      ∃ r, text = Path.ofNames r ∧ s.Covers r) := by
  refine ⟨fun r h => ?_, fun c h => ?_, fun text h => ?_⟩
  · simp only [authorize] at h
    split_ifs at h with hc he
    cases h
    simp only [Bool.not_eq_true', Bool.not_eq_false] at hc he
    exact ⟨he, (contains_iff_covers s _).mp hc, (settled_resolve t cwd path).canonicalize he⟩
  · obtain ⟨hr, hreal⟩ := resolve_of_canonicalize h
    have he := pathExists_of_isReal cwd hreal
    constructor
    · intro hc
      rw [← contains_iff_covers] at hc
      simp [authorize, hr, hc, he]
    · intro hc
      rw [← contains_iff_covers, Bool.not_eq_true] at hc
      simp [authorize, hr, hc]
  · simp only [authorize] at h
    split_ifs at h with hc he
    · cases h
    · injection h with h
      injection h with h
      exact ⟨_, h.symm, (contains_iff_covers s _).mp (by simpa using hc)⟩

/-- A place with a file and a link to it beside it. -/
def sampleTree : FileTree :=
  ⟨[(["repo"], .directory), (["repo", "a.py"], .file ByteArray.empty),
    (["repo", "b.py"], .link "a.py")]⟩

theorem authorize_below_allowed_link :
    (⟨[["repo"]]⟩ : Sandbox).authorize sampleTree "/" "/repo/b.py" = .ok ["repo", "a.py"] ∧
      (⟨[["repo"]]⟩ : Sandbox).Covers ["repo", "a.py"] :=
  have h : (⟨[["repo"]]⟩ : Sandbox).authorize sampleTree "/" "/repo/b.py" = .ok ["repo", "a.py"] :=
    by cbv
  ⟨h, ((authorize_below_allowed ⟨[["repo"]]⟩ sampleTree "/" "/repo/b.py").1 _ h).2.1⟩

end DiagnosticBroker.Sandbox
