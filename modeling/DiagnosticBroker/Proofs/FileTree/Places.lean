import DiagnosticBroker.FileTree.Basic
import Mathlib.Data.List.Infix

/-!
# The places that walks end at

A walk ends at a *real* place: every name on the way to it stands in a directory and is no link. The
names of a real place in turn lead to it and to nothing else, so a walk along them gives the place
back.

Results:
* `isReal_of_walk`, `walk_of_isReal`: walks end at real places, and the names of a real place lead
  to it.
* `walk_reach`: a walk that may look at fewer places ends where the other one does, or at a place
  out of its reach.
* `pieces_ofNames`: the text of a place falls into its names again.
-/

namespace DiagnosticBroker.FileTree

/-! ## Names and their texts -/

/-- A piece of a path that names an entry. -/
structure IsName (n : String) : Prop where
  noSlash : '/' ∉ n.toList
  notBlank : isBlank n = false
  notParent : n ≠ ".."

theorem splitSlash_noSlash (acc cs : List Char) (ha : '/' ∉ acc) :
    ∀ n ∈ Path.splitSlash acc cs, '/' ∉ n.toList := by
  induction cs generalizing acc with
  | nil => simpa [Path.splitSlash] using ha
  | cons c cs ih =>
    intro n hn
    rw [Path.splitSlash] at hn
    split_ifs at hn with hc
    · rcases List.mem_cons.mp hn with rfl | hn
      · simpa using ha
      · exact ih [] (by simp) n hn
    · refine ih (c :: acc) ?_ n hn
      simp only [List.mem_cons, not_or]
      exact ⟨fun h => hc h.symm, ha⟩

theorem pieces_noSlash {path n : String} (h : n ∈ pieces path) : '/' ∉ n.toList :=
  splitSlash_noSlash [] _ (by simp) n h

/-- The first slash ends the first piece. -/
theorem splitSlash_append (acc cs rest : List Char) (hc : '/' ∉ cs) :
    Path.splitSlash acc (cs ++ '/' :: rest) =
      String.ofList (acc.reverse ++ cs) :: Path.splitSlash [] rest := by
  induction cs generalizing acc with
  | nil => simp [Path.splitSlash]
  | cons c cs ih =>
    simp only [List.mem_cons, not_or] at hc
    rw [List.cons_append, Path.splitSlash, if_neg (fun h => hc.1 h.symm), ih _ hc.2]
    simp

theorem splitSlash_eq_singleton (acc cs : List Char) (hc : '/' ∉ cs) :
    Path.splitSlash acc cs = [String.ofList (acc.reverse ++ cs)] := by
  induction cs generalizing acc with
  | nil => simp [Path.splitSlash]
  | cons c cs ih =>
    simp only [List.mem_cons, not_or] at hc
    rw [Path.splitSlash, if_neg (fun h => hc.1 h.symm), ih _ hc.2]
    simp

theorem splitSlash_intercalate (n : String) (ns : List String)
    (h : ∀ m ∈ n :: ns, '/' ∉ m.toList) :
    Path.splitSlash [] ("/".intercalate (n :: ns)).toList = n :: ns := by
  induction ns generalizing n with
  | nil => simpa using splitSlash_eq_singleton [] n.toList (h n (by simp))
  | cons m ns ih =>
    rw [String.intercalate_cons_cons, String.toList_append, String.toList_append,
      List.append_assoc]
    have := splitSlash_append [] n.toList ("/".intercalate (m :: ns)).toList (h n (by simp))
    simp only [List.reverse_nil, List.nil_append, String.ofList_toList] at this
    rw [show "/".toList ++ ("/".intercalate (m :: ns)).toList =
      '/' :: ("/".intercalate (m :: ns)).toList from rfl, this,
      ih m fun k hk => h k (List.mem_cons_of_mem _ hk)]

/-- The text of a place begins at the root, so that its first piece is empty. -/
theorem pieces_ofNames {p : Place} (hp : p ≠ []) (h : ∀ n ∈ p, '/' ∉ n.toList) :
    pieces (Path.ofNames p) = "" :: p := by
  obtain ⟨n, ns, rfl⟩ := List.exists_cons_of_ne_nil hp
  have hs := splitSlash_append [] [] ("/".intercalate (n :: ns)).toList (by simp)
  simp only [List.reverse_nil, List.nil_append] at hs
  rw [pieces, Path.ofNames, String.toList_append,
    show "/".toList ++ ("/".intercalate (n :: ns)).toList =
      '/' :: ("/".intercalate (n :: ns)).toList from rfl, hs, splitSlash_intercalate n ns h]

theorem pieces_ofNames_nil : pieces (Path.ofNames []) = ["", ""] := by
  simp [pieces, Path.ofNames, Path.splitSlash]

theorem join_ofNames (cwd : String) (p : Place) :
    Path.join cwd (Path.ofNames p) = Path.ofNames p := by
  simp [Path.join, Uri.absolute, Path.ofNames]

theorem ofNames_noNul {p : Place} (h : ∀ n ∈ p, n.contains '\x00' = false) :
    (Path.ofNames p).contains '\x00' = false := by
  have hn : ∀ ps : List String, (∀ n ∈ ps, n.contains '\x00' = false) →
      '\x00' ∉ ("/".intercalate ps).toList := by
    intro ps hps
    induction ps with
    | nil => simp
    | cons n ps ih =>
      have h1 := hps n (by simp)
      cases ps with
      | nil => simpa using h1
      | cons m ps =>
        have h2 := ih fun k hk => hps k (List.mem_cons_of_mem _ hk)
        rw [String.intercalate_cons_cons]
        simp only [String.toList_append, List.mem_append, not_or]
        exact ⟨⟨by simpa using h1, by decide⟩, h2⟩
  have := hn p h
  simp only [Path.ofNames, String.contains_char_eq, String.toList_append, List.mem_append,
    decide_eq_false_iff_not, not_or]
  exact ⟨by decide, this⟩

/-! ## Real places -/

/-- One name from a directory stands an entry that is no link, and it may be looked at. -/
structure StepsTo (t : FileTree) (reach : Reach) (here : Place) (n : String) : Prop where
  directory : t.isDirectory here = true
  isName : IsName n
  noNul : n.contains '\x00' = false
  short : n.utf8ByteSize ≤ maxNameBytes
  near : reach (here ++ [n]) = true
  entry : ∃ e, t.entry? (here ++ [n]) = some e ∧ ∀ target, e ≠ .link target

/-- A place that is reached without a link. -/
def IsReal (t : FileTree) (reach : Reach) (p : Place) : Prop :=
  ∀ q n, q ++ [n] <+: p → t.StepsTo reach q n

variable {t : FileTree} {reach : Reach}

theorem isReal_nil (t : FileTree) (reach : Reach) : t.IsReal reach [] := by
  intro q n h
  simp at h

theorem IsReal.of_prefix {p q : Place} (h : t.IsReal reach p) (hq : q <+: p) :
    t.IsReal reach q :=
  fun r n hr => h r n (hr.trans hq)

theorem IsReal.append {p : Place} {n : String} (h : t.IsReal reach p) (hn : t.StepsTo reach p n) :
    t.IsReal reach (p ++ [n]) := by
  intro q m hq
  rcases List.prefix_concat_iff.mp hq with heq | hq
  · obtain ⟨rfl, hm⟩ := List.append_inj' heq rfl
    cases hm
    exact hn
  · exact h q m hq

/-- What may be looked at within a smaller reach may be looked at anywhere. -/
theorem IsReal.anywhere {p : Place} (h : t.IsReal reach p) : t.IsReal anywhere p := by
  intro q n hq
  obtain ⟨h1, h2, h3, h4, -, h6⟩ := h q n hq
  exact ⟨h1, h2, h3, h4, rfl, h6⟩

theorem IsReal.stepsTo_of_mem {p : Place} (h : t.IsReal reach p) {n : String} (hn : n ∈ p) :
    ∃ q, t.StepsTo reach q n := by
  obtain ⟨q, r, rfl⟩ := List.append_of_mem hn
  exact ⟨q, h q n ⟨r, by simp⟩⟩

theorem IsReal.isName {p : Place} (h : t.IsReal reach p) : ∀ n ∈ p, IsName n := by
  intro n hn
  obtain ⟨q, hq⟩ := h.stepsTo_of_mem hn
  exact hq.isName

/-- The walk to a place looks at the place itself last. -/
theorem IsReal.near {p : Place} (h : t.IsReal reach p) (hp : p ≠ []) : reach p = true := by
  have := (h p.dropLast (p.getLast hp) (by rw [List.dropLast_append_getLast])).near
  rwa [List.dropLast_append_getLast] at this

/-! ## Walks -/

/-- One step of a walk to an entry: what follows is told by the entry, if it may be looked at. -/
theorem walk_name {links : Nat} {here : Place} {piece : String} {rest : List String} {e : Entry}
    (reach : Reach) (hd : t.isDirectory here = true) (hb : isBlank piece = false)
    (hp : piece ≠ "..") (hz : piece.contains '\x00' = false)
    (hl : piece.utf8ByteSize ≤ maxNameBytes) (he : t.entry? (here ++ [piece]) = some e) :
    t.walk reach links here (piece :: rest) =
      if reach (here ++ [piece]) then
        match e, links with
        | .link _, 0 => .error .loop
        | .link target, links + 1 =>
          t.walk reach links (linkStart here target) (pieces target ++ rest)
        | _, _ => t.walk reach links (here ++ [piece]) rest
      else .error .nameTooLong := by
  rw [walk]
  simp only [hd, hb, hp, hz, he, not_lt.mpr hl, Bool.not_true, Bool.false_eq_true, if_false,
    decide_false, Bool.false_or, Bool.not_eq_true']
  cases reach (here ++ [piece]) <;> cases e <;> cases links <;> rfl

/-- Walks go from real places to real places: links are left behind, and a name is added only where
its entry is no link. -/
theorem isReal_of_walk {links : Nat} {here p : Place} {ps : List String}
    (hps : ∀ n ∈ ps, '/' ∉ n.toList) (hh : t.IsReal reach here)
    (h : t.walk reach links here ps = .ok p) : t.IsReal reach p := by
  fun_induction walk t reach links here ps with
  | case1 => cases h; exact hh
  | case2 | case5 | case6 | case7 | case8 => cases h
  | case3 links here piece rest hd hb ih =>
    exact ih (fun n hn => hps n (List.mem_cons_of_mem _ hn)) hh h
  | case4 links here rest hd hb ih =>
    exact ih (fun n hn => hps n (List.mem_cons_of_mem _ hn))
      (hh.of_prefix (List.dropLast_prefix here)) h
  | case9 here piece rest hd hb hp hz hl target he links ih =>
    refine ih (fun n hn => ?_) ?_ h
    · rcases List.mem_append.mp hn with hn | hn
      · exact pieces_noSlash hn
      · exact hps n (List.mem_cons_of_mem _ hn)
    · unfold linkStart
      split_ifs
      · exact isReal_nil t reach
      · exact hh
  | case10 links here piece rest hd hb hp hz hl e hne he ih =>
    refine ih (fun n hn => hps n (List.mem_cons_of_mem _ hn)) (hh.append ?_) h
    simp only [Bool.or_eq_true, decide_eq_true_eq, Bool.not_eq_true', not_or, not_lt,
      Bool.not_eq_false] at hl
    exact ⟨by simpa using hd, ⟨hps piece (by simp), by simpa using hb, hp⟩, by simpa using hz,
      hl.1, hl.2, e, he, fun target ht => hne target (ht ▸ rfl)⟩

/-- The names of a real place lead to it, without following any link. -/
theorem walk_of_isReal {links : Nat} {here rest : Place} (h : t.IsReal reach (here ++ rest)) :
    t.walk reach links here rest = .ok (here ++ rest) := by
  induction rest generalizing here with
  | nil => simp [walk]
  | cons n rest ih =>
    have hs : t.StepsTo reach here n := h here n ⟨rest, by simp⟩
    obtain ⟨e, he, hl⟩ := hs.entry
    have h' : t.IsReal reach ((here ++ [n]) ++ rest) := by simpa using h
    have hnext : t.walk reach links (here ++ [n]) rest = .ok (here ++ n :: rest) := by
      simpa using ih h'
    rw [walk_name reach hs.directory hs.isName.notBlank hs.isName.notParent hs.noNul hs.short he,
      if_pos hs.near]
    cases e with
    | link target => exact absurd rfl (hl target)
    | directory => exact hnext
    | file content => exact hnext

/-- A walk within a smaller reach ends where the free one does, unless it comes to an entry out of
its reach. -/
theorem walk_reach (reach : Reach) {links : Nat} {here p : Place} {ps : List String}
    (h : t.walk anywhere links here ps = .ok p) :
    t.walk reach links here ps = .ok p ∨
      t.walk reach links here ps = .error .nameTooLong ∧
        ∃ q, (t.entry? q).isSome ∧ reach q = false := by
  fun_induction walk t anywhere links here ps with
  | case1 => cases h; exact .inl (walk_nil t reach _ _)
  | case2 | case5 | case6 | case7 | case8 => cases h
  | case3 links here piece rest hd hb ih =>
    rw [walk_blank reach links rest (by simpa using hd) hb]
    exact ih h
  | case4 links here rest hd hb ih =>
    rw [walk_parent reach links rest (by simpa using hd)]
    exact ih h
  | case9 here piece rest hd hb hp hz hl target he links ih =>
    rw [walk_name reach (by simpa using hd) (by simpa using hb) hp (by simpa using hz)
      (by simp at hl; exact hl.1) he]
    cases hr : reach (here ++ [piece]) with
    | true => exact ih h
    | false => exact .inr ⟨rfl, _, by simp [he], hr⟩
  | case10 links here piece rest hd hb hp hz hl e hne he ih =>
    rw [walk_name reach (by simpa using hd) (by simpa using hb) hp (by simpa using hz)
      (by simp at hl; exact hl.1) he]
    cases hr : reach (here ++ [piece]) with
    | false => exact .inr ⟨rfl, _, by simp [he], hr⟩
    | true =>
      cases e with
      | link target => exact absurd rfl (hne target)
      | directory => exact ih h
      | file content => exact ih h

end DiagnosticBroker.FileTree
