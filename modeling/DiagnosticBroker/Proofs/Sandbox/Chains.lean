import DiagnosticBroker.Proofs.Sandbox.Containment

/-!
# How many links a resolution follows

Forty links to something missing are followed one behind the other, but each name of a target starts
anew with what is left. `followed` lists the links that a resolution follows, each with the links
that led to it. So the length of such a chain is bounded, and the number of chains is not: a link
whose target names it twice is followed twice as often with every hop.

Results:
* `followed_within_budget`: the record changes nothing; how long a chain can be, and how many links
  are followed in all.
* `length_followed_doubling`: both bounds are reached.
* `length_followed_mentions`: a path can have a link followed as often as it names it.
-/

namespace DiagnosticBroker.Sandbox

open FileTree (pieces)

variable {t : FileTree} {hops m : Nat} {ps : List String} {directory : Place} {name : String}

/-! ## Resolving with a record -/

/-- A link that is followed, behind those whose targets were being resolved when it was met, the
outermost one first. -/
abbrev Chain := List Place

/-- The place that something leads to, and the links that are followed on the way. -/
structure Trace where
  place : Place
  chains : List Chain

/-- What a resolution goes through when it follows a link. -/
def detour (directory : Place) (target : String) : List String :=
  FileTree.linkStart directory target ++ pieces target

/-- Adds one piece of a path to what has been resolved, as `resolveStep` does. -/
def traceStep (t : FileTree) (follow : Place → String → Option Trace) (r : Trace)
    (piece : String) : Trace :=
  if FileTree.isBlank piece then r
  else if piece = ".." then ⟨r.place.dropLast, r.chains⟩
  else
    match t.realPlace (r.place ++ [piece]) with
    | .ok p => ⟨p, r.chains⟩
    | .error _ =>
      match follow r.place piece with
      | some q => ⟨q.place, r.chains ++ q.chains⟩
      | none => ⟨r.place ++ [piece], r.chains⟩

/-- Where the pieces of an absolute path lead to, as `resolvePieces` tells it. -/
def tracePieces (t : FileTree) (follow : Place → String → Option Trace) (ps : List String) :
    Trace :=
  match t.realPlace ps with
  | .ok p => ⟨p, []⟩
  | .error _ => ps.foldl (traceStep t follow) ⟨[], []⟩

/-- Where a link to something missing leads, as `followDangling` tells it. The link is followed
first, and then those that its target names. -/
def traceDangling (t : FileTree) : Nat → Place → String → Option Trace
  | 0, _, _ => none
  | hops + 1, directory, name =>
    match t.linkAt? (directory ++ [name]) with
    | none => none
    | some target =>
      let r := tracePieces t (traceDangling t hops) (detour directory target)
      some ⟨r.place, [directory ++ [name]] :: r.chains.map ((directory ++ [name]) :: ·)⟩

/-- A resolution with its record. -/
def trace (t : FileTree) (cwd path : String) : Trace :=
  tracePieces t (traceDangling t maxHops) (pieces (Path.join cwd path))

/-- The links that a resolution follows, in order, each with those that led to it. -/
def followed (t : FileTree) (cwd path : String) : List Chain := (trace t cwd path).chains

/-! ## The record changes nothing -/

theorem place_traceStep {follow : Place → String → Option Trace}
    {follow' : Place → String → Option Place}
    (h : ∀ d n, (follow d n).map (·.place) = follow' d n) (r : Trace) (piece : String) :
    (traceStep t follow r piece).place = resolveStep t follow' r.place piece := by
  unfold traceStep resolveStep
  split_ifs
  · rfl
  · rfl
  · rw [← h]
    cases t.realPlace (r.place ++ [piece]) with
    | ok p => rfl
    | error e => cases follow r.place piece <;> rfl

theorem place_tracePieces {follow : Place → String → Option Trace}
    {follow' : Place → String → Option Place}
    (h : ∀ d n, (follow d n).map (·.place) = follow' d n) (ps : List String) :
    (tracePieces t follow ps).place = resolvePieces t follow' ps := by
  have hfold : ∀ (qs : List String) (r : Trace), (qs.foldl (traceStep t follow) r).place =
      qs.foldl (resolveStep t follow') r.place := by
    intro qs
    induction qs with
    | nil => intro r; rfl
    | cons n qs ih => intro r; rw [List.foldl_cons, ih, place_traceStep h, List.foldl_cons]
  unfold tracePieces resolvePieces
  cases t.realPlace ps with
  | ok p => rfl
  | error e => exact hfold ps ⟨[], []⟩

theorem place_traceDangling (t : FileTree) (hops : Nat) (d : Place) (n : String) :
    (traceDangling t hops d n).map (·.place) = followDangling t hops d n := by
  induction hops generalizing d n with
  | zero => rfl
  | succ hops ih =>
    rw [traceDangling, followDangling]
    cases t.linkAt? (d ++ [n]) with
    | none => rfl
    | some target => exact congrArg some (place_tracePieces ih (detour d target))

/-- **The record.** A resolution finds the same place with it and without. -/
theorem place_trace (t : FileTree) (cwd path : String) :
    (trace t cwd path).place = resolve t cwd path :=
  place_tracePieces (place_traceDangling t maxHops) _

/-! ## What is on record -/

/-- The links of a chain lead from some pieces of a path to its last link: the first one is named by
the pieces, and each other one by what is gone through to follow the one before it. -/
inductive Leads (t : FileTree) : List String → Chain → Prop
  | last {ps : List String} {directory : Place} {name target : String} (hn : name ∈ ps)
      (hl : t.linkAt? (directory ++ [name]) = some target) : Leads t ps [directory ++ [name]]
  | next {ps : List String} {directory : Place} {name target : String} {c : Chain}
      (hn : name ∈ ps) (hl : t.linkAt? (directory ++ [name]) = some target)
      (hc : Leads t (detour directory target) c) : Leads t ps ((directory ++ [name]) :: c)

/-- What is on record of some pieces, is so because one of them was followed. -/
theorem exists_follow_of_mem {follow : Place → String → Option Trace} {c : Chain}
    (h : c ∈ (tracePieces t follow ps).chains) :
    ∃ d, ∃ n ∈ ps, ∃ q, follow d n = some q ∧ c ∈ q.chains := by
  have hstep : ∀ (r : Trace) (n : String), c ∈ (traceStep t follow r n).chains →
      c ∈ r.chains ∨ ∃ q, follow r.place n = some q ∧ c ∈ q.chains := by
    intro r n hc
    unfold traceStep at hc
    split_ifs at hc
    · exact .inl hc
    · exact .inl hc
    · split at hc
      · exact .inl hc
      · split at hc <;> rename_i hf
        · exact (List.mem_append.mp hc).imp_right fun hc => ⟨_, hf, hc⟩
        · exact .inl hc
  have hfold : ∀ (qs : List String) (r : Trace), c ∈ (qs.foldl (traceStep t follow) r).chains →
      c ∈ r.chains ∨ ∃ d, ∃ n ∈ qs, ∃ q, follow d n = some q ∧ c ∈ q.chains := by
    intro qs
    induction qs with
    | nil => intro r hc; exact .inl hc
    | cons n qs ih =>
      intro r hc
      rcases ih _ hc with hc | ⟨d, k, hk, q, hq, hc⟩
      · exact (hstep r n hc).imp_right fun ⟨q, hq, hc⟩ => ⟨r.place, n, by simp, q, hq, hc⟩
      · exact .inr ⟨d, k, List.mem_cons_of_mem _ hk, q, hq, hc⟩
  unfold tracePieces at h
  split at h
  · cases h
  · exact (hfold ps ⟨[], []⟩ h).resolve_left (by simp)

/-- By induction on the links that may still be followed: a chain is one, and has no more links than
that. -/
theorem leads_of_traceDangling {q : Trace} {c : Chain} (h : traceDangling t hops directory name = some q)
    (hc : c ∈ q.chains) (hn : name ∈ ps) : Leads t ps c ∧ c.length ≤ hops := by
  induction hops generalizing directory name ps q c with
  | zero => cases h
  | succ hops ih =>
    rw [traceDangling] at h
    cases hl : t.linkAt? (directory ++ [name]) with
    | none => simp [hl] at h
    | some target =>
      simp only [hl, Option.some.injEq] at h
      subst h
      rcases List.mem_cons.mp hc with rfl | hc
      · exact ⟨.last hn hl, by simp⟩
      · obtain ⟨c', hc', rfl⟩ := List.mem_map.mp hc
        obtain ⟨d, k, hk, q', hq', hmem⟩ := exists_follow_of_mem hc'
        obtain ⟨hleads, hlen⟩ := ih hq' hmem hk
        exact ⟨.next hn hl hleads, Nat.succ_le_succ hlen⟩

theorem leads_of_mem {cwd path : String} {c : Chain} (h : c ∈ followed t cwd path) :
    Leads t (pieces (Path.join cwd path)) c ∧ c.length ≤ maxHops := by
  obtain ⟨d, n, hn, q, hq, hc⟩ := exists_follow_of_mem h
  exact leads_of_traceDangling hq hc hn

/-! ## How much is on record -/

/-- How many pieces of a path name something. -/
def namesIn (ps : List String) : Nat :=
  ps.countP fun n => !FileTree.isBlank n && n ≠ ".."

/-- Every name is followed once at most. -/
theorem length_tracePieces_le {follow : Place → String → Option Trace} {k : Nat}
    (h : ∀ d n q, follow d n = some q → q.chains.length ≤ k) (ps : List String) :
    (tracePieces t follow ps).chains.length ≤ namesIn ps * k := by
  have hstep : ∀ (r : Trace) (n : String), (traceStep t follow r n).chains.length ≤
      r.chains.length + namesIn [n] * k := by
    intro r n
    unfold traceStep
    split_ifs with hb hd
    · exact Nat.le_add_right _ _
    · exact Nat.le_add_right _ _
    · have hone : namesIn [n] = 1 := by simp [namesIn, hb, hd]
      rw [hone, one_mul]
      split
      · exact Nat.le_add_right _ _
      · split <;> rename_i hf
        · rw [List.length_append]
          exact Nat.add_le_add_left (h _ _ _ hf) _
        · exact Nat.le_add_right _ _
  have hfold : ∀ (qs : List String) (r : Trace), (qs.foldl (traceStep t follow) r).chains.length ≤
      r.chains.length + namesIn qs * k := by
    intro qs
    induction qs with
    | nil => intro r; exact Nat.le_add_right _ _
    | cons n qs ih =>
      intro r
      have hsum : namesIn (n :: qs) = namesIn [n] + namesIn qs := by
        rw [namesIn, ← List.singleton_append, List.countP_append]
        rfl
      calc ((n :: qs).foldl (traceStep t follow) r).chains.length
          ≤ (traceStep t follow r n).chains.length + namesIn qs * k := ih _
        _ ≤ r.chains.length + namesIn [n] * k + namesIn qs * k :=
            Nat.add_le_add_right (hstep r n) _
        _ = r.chains.length + namesIn (n :: qs) * k := by rw [hsum]; ring
  unfold tracePieces
  split
  · exact Nat.zero_le _
  · simpa using hfold ps ⟨[], []⟩

/-- No link of the tree leads a resolution through more than some number of names. -/
def Branches (t : FileTree) (m : Nat) : Prop :=
  ∀ directory name target, t.linkAt? (directory ++ [name]) = some target →
    namesIn (detour directory target) ≤ m

/-- By induction on the links that may still be followed: each hop multiplies what is followed by the
names that a target can have. -/
theorem length_traceDangling_le (hm : Branches t m) {q : Trace}
    (h : traceDangling t hops directory name = some q) :
    q.chains.length ≤ ∑ i ∈ Finset.range hops, m ^ i := by
  induction hops generalizing directory name q with
  | zero => cases h
  | succ hops ih =>
    rw [traceDangling] at h
    cases hl : t.linkAt? (directory ++ [name]) with
    | none => simp [hl] at h
    | some target =>
      simp only [hl, Option.some.injEq] at h
      subst h
      have hfollow : ∀ d n q, traceDangling t hops d n = some q →
          q.chains.length ≤ ∑ i ∈ Finset.range hops, m ^ i := fun _ _ _ h => ih h
      have hinner := length_tracePieces_le (t := t) hfollow (detour directory target)
      rw [geom_sum_succ, List.length_cons, List.length_map]
      exact Nat.succ_le_succ (hinner.trans (Nat.mul_le_mul_right _ (hm _ _ _ hl)))

theorem length_followed_le (hm : Branches t m) (cwd path : String) :
    (followed t cwd path).length ≤
      namesIn (pieces (Path.join cwd path)) * ∑ i ∈ Finset.range maxHops, m ^ i :=
  length_tracePieces_le (fun _ _ _ => length_traceDangling_le hm) _

/-! ## What bounds a resolution -/

/-- **The budget.** A resolution that keeps its chains finds the same place. Every link it follows
stands behind those whose targets named it, one in the other, and they are at most forty with it,
also where a link's target names the link itself. So in a tree whose links each lead through at most
`m` names, what is followed in all is bounded by the names of the path and forty powers of `m`. -/
theorem followed_within_budget (t : FileTree) (cwd path : String) :
    (trace t cwd path).place = resolve t cwd path ∧
    (∀ c ∈ followed t cwd path,
      Leads t (pieces (Path.join cwd path)) c ∧ c.length ≤ maxHops) ∧
    ∀ m, Branches t m → (followed t cwd path).length ≤
      namesIn (pieces (Path.join cwd path)) * ∑ i ∈ Finset.range maxHops, m ^ i :=
  ⟨place_trace t cwd path, fun _ => leads_of_mem, fun _ hm => length_followed_le hm cwd path⟩

/-- The root with one link in it. -/
def oneLink (target : String) : FileTree := ⟨[(["l"], .link target)]⟩

theorem target_of_entry_oneLink {target target' : String} {p : Place}
    (h : FileTree.entry? (oneLink target) p = some (.link target')) : target' = target := by
  unfold FileTree.entry? oneLink at h
  split_ifs at h
  · cases h
  · rw [List.lookup_cons] at h
    split at h
    · cases h
      rfl
    · cases h

theorem linkAt?_oneLink (target : String) : (oneLink target).linkAt? ["l"] = some target := by
  have hnear : FileTree.nameable ["l"] = true := by decide
  simp [FileTree.linkAt?, hnear, FileTree.walk_nil, FileTree.entry?, oneLink]

theorem eq_of_linkAt?_oneLink {target target' : String} {p : Place}
    (h : (oneLink target).linkAt? p = some target') : target' = target := by
  unfold FileTree.linkAt? at h
  split at h
  · cases h
  · split_ifs at h
    split at h
    · cases h
    · split at h
      · cases h
        exact target_of_entry_oneLink ‹_›
      · cases h

/-- The walk along the one link goes on with its target, while links may be followed. -/
theorem walk_oneLink (target : String) (links : Nat) (rest : List String) :
    (oneLink target).walk FileTree.nameable links [] ("l" :: rest) =
      match links with
      | 0 => .error .loop
      | links + 1 => (oneLink target).walk FileTree.nameable links
          (FileTree.linkStart [] target) (pieces target ++ rest) := by
  rw [FileTree.walk_name (e := .link target) FileTree.nameable rfl (by decide) (by decide)
    (by simp) (by decide) (by simp [oneLink, FileTree.entry?]), if_pos (by decide)]
  cases links <;> rfl


/-! ### A link that names itself twice -/

/-- A tree with a link to nowhere, which names itself twice. -/
def doubling : FileTree := oneLink "/l/../l"

theorem linkStart_doubling (directory : Place) : FileTree.linkStart directory "/l/../l" = [] := by
  simp [FileTree.linkStart, Path.isAbsolute]

theorem pieces_doubling : pieces "/l/../l" = ["", "l", "..", "l"] := by decide

theorem detour_doubling (directory : Place) :
    detour directory "/l/../l" = ["", "l", "..", "l"] := by
  rw [detour, linkStart_doubling, pieces_doubling]
  rfl

theorem branches_doubling : Branches doubling 2 := by
  intro directory name target h
  rw [eq_of_linkAt?_oneLink h, detour_doubling]
  decide

/-- No walk gets past the link. -/
theorem walk_doubling (links : Nat) (rest : List String) :
    doubling.walk FileTree.nameable links [] ("l" :: rest) = .error .loop := by
  induction links generalizing rest with
  | zero => exact walk_oneLink _ 0 rest
  | succ links ih =>
    rw [doubling, walk_oneLink]
    simp only [linkStart_doubling, pieces_doubling, List.cons_append, List.nil_append]
    rw [FileTree.walk_blank _ _ _ rfl (by decide)]
    exact ih _

/-- What is followed for the link counts twice where its target is gone through. -/
theorem tracePieces_doubling {follow : Place → String → Option Trace} {chains : List Chain}
    (hq : (follow [] "l").getD ⟨["l"], []⟩ = ⟨["l"], chains⟩) :
    tracePieces doubling follow ["", "l", "..", "l"] = ⟨["l"], chains ++ chains⟩ := by
  have hreal : ∀ rest, doubling.realPlace ("l" :: rest) = .error .loop :=
    walk_doubling FileTree.maxLinks
  have hall : doubling.realPlace ["", "l", "..", "l"] = .error .loop := by
    rw [FileTree.realPlace, FileTree.walk_blank _ _ _ rfl (by decide)]
    exact hreal _
  have hlink : ∀ before, traceStep doubling follow ⟨[], before⟩ "l" =
      ⟨["l"], before ++ chains⟩ := by
    intro before
    have hone : doubling.realPlace ([] ++ ["l"]) = .error .loop := hreal []
    simp only [traceStep, hone]
    cases hf : follow [] "l" with
    | none =>
      rw [hf] at hq
      cases hq
      simp [FileTree.isBlank]
    | some r =>
      rw [hf, Option.getD_some] at hq
      simp [hq, FileTree.isBlank]
  have hparent : ∀ before, traceStep doubling follow ⟨["l"], before⟩ ".." = ⟨[], before⟩ :=
    fun _ => rfl
  have hblank : ∀ r, traceStep doubling follow r "" = r := fun _ => rfl
  simp only [tracePieces, hall, List.foldl_cons, List.foldl_nil, hblank, hlink, hparent,
    List.nil_append]

/-- By induction on the links that may still be followed: with each one more, the link is followed
twice as often and once again, and the longest chain is one longer. -/
theorem traceDangling_doubling (hops : Nat) :
    ∃ chains, (traceDangling doubling hops [] "l").getD ⟨["l"], []⟩ = ⟨["l"], chains⟩ ∧
      chains.length = ∑ i ∈ Finset.range hops, 2 ^ i ∧
      ∀ k < hops, List.replicate (k + 1) ["l"] ∈ chains := by
  induction hops with
  | zero => exact ⟨[], rfl, rfl, fun k hk => absurd hk (Nat.not_lt_zero k)⟩
  | succ hops ih =>
    obtain ⟨chains, hq, hlen, hmem⟩ := ih
    have hl : doubling.linkAt? ([] ++ ["l"]) = some "/l/../l" := linkAt?_oneLink _
    simp only [traceDangling, hl, detour_doubling, tracePieces_doubling hq, Option.getD_some]
    refine ⟨_, rfl, ?_, ?_⟩
    · rw [List.length_cons, List.length_map, List.length_append, hlen, geom_sum_succ]
      ring
    · intro k hk
      cases k with
      | zero => exact List.mem_cons_self
      | succ k =>
        refine List.mem_cons_of_mem _ (List.mem_map.mpr ⟨List.replicate (k + 1) ["l"], ?_, rfl⟩)
        exact List.mem_append_left _ (hmem k (Nat.lt_of_succ_lt_succ hk))

theorem followed_doubling (cwd : String) :
    ∃ chains, followed doubling cwd "/l/../l" = chains ++ chains ∧
      chains.length = ∑ i ∈ Finset.range maxHops, 2 ^ i ∧
      List.replicate maxHops ["l"] ∈ chains := by
  obtain ⟨chains, hq, hlen, hmem⟩ := traceDangling_doubling maxHops
  have hjoin : Path.join cwd "/l/../l" = "/l/../l" := by simp [Path.join, Uri.absolute]
  refine ⟨chains, ?_, hlen, hmem 39 (by decide)⟩
  rw [followed, trace, hjoin, pieces_doubling, tracePieces_doubling hq]

/-- **The bounds are reached.** For each of two names in the path, the link is followed 2⁴⁰ - 1
times, and forty times behind itself. -/
theorem length_followed_doubling (cwd : String) :
    (followed doubling cwd "/l/../l").length = 2 * ∑ i ∈ Finset.range maxHops, 2 ^ i := by
  obtain ⟨chains, h, hlen, -⟩ := followed_doubling cwd
  rw [h, List.length_append, hlen, two_mul]

theorem longest_mem_followed_doubling (cwd : String) :
    List.replicate maxHops ["l"] ∈ followed doubling cwd "/l/../l" := by
  obtain ⟨chains, h, -, hmem⟩ := followed_doubling cwd
  exact h ▸ List.mem_append_left _ hmem

/-- The budget where both bounds are reached. -/
theorem followed_within_budget_doubling :
    List.replicate maxHops ["l"] ∈ followed doubling "/" "/l/../l" ∧
    (List.replicate maxHops ["l"]).length ≤ maxHops ∧
    Branches doubling 2 ∧ (followed doubling "/" "/l/../l").length ≤
      namesIn (pieces (Path.join "/" "/l/../l")) * ∑ i ∈ Finset.range maxHops, 2 ^ i := by
  obtain ⟨-, hchain, hall⟩ := followed_within_budget doubling "/" "/l/../l"
  have hmem := longest_mem_followed_doubling "/"
  exact ⟨hmem, (hchain _ hmem).2, branches_doubling, hall 2 branches_doubling⟩

/-! ### A path that names a link often -/

/-- A tree with a link to something missing. -/
def dangling : FileTree := oneLink "gone"

/-- A path that names the link again and again, each time from the root. -/
def mentions (n : Nat) : Place := (List.replicate n ["l", ".."]).flatten ++ ["l"]

theorem mentions_succ (n : Nat) : mentions (n + 1) = "l" :: ".." :: mentions n := by
  simp [mentions, List.replicate_succ]

theorem exists_mentions_eq_cons (n : Nat) : ∃ rest, mentions n = "l" :: rest := by
  cases n with
  | zero => exact ⟨[], rfl⟩
  | succ n => exact ⟨_, mentions_succ n⟩

theorem noSlash_mentions (n : Nat) : ∀ k ∈ mentions n, '/' ∉ k.toList := by
  induction n with
  | zero => decide
  | succ n ih =>
    rw [mentions_succ, List.forall_mem_cons, List.forall_mem_cons]
    exact ⟨by decide, by decide, ih⟩

theorem entry_gone : dangling.entry? ["gone"] = none := by
  simp [dangling, oneLink, FileTree.entry?, List.lookup]

theorem walk_gone (links : Nat) (rest : List String) :
    dangling.walk FileTree.nameable links [] ("gone" :: rest) = .error .notFound := by
  have hnear : FileTree.nameable ["gone"] = true := by decide
  have hlen : ¬ FileTree.maxNameBytes < "gone".utf8ByteSize := by decide
  have hroot : dangling.isDirectory [] = true := rfl
  rw [FileTree.walk]
  simp [hnear, hlen, hroot, FileTree.isBlank, entry_gone]

theorem realPlace_mention (rest : List String) :
    dangling.realPlace ("l" :: rest) = .error .notFound := by
  have hpieces : pieces "gone" = ["gone"] := by decide
  have hstart : FileTree.linkStart [] "gone" = [] := by simp [FileTree.linkStart]
  rw [FileTree.realPlace, dangling, walk_oneLink]
  simp only [FileTree.maxLinks, hpieces, hstart]
  exact walk_gone _ _

/-- What is missing is nothing to follow. -/
theorem traceDangling_gone (hops : Nat) : traceDangling dangling hops [] "gone" = none := by
  cases hops with
  | zero => rfl
  | succ hops =>
    have hnear : FileTree.nameable ["gone"] = true := by decide
    have hl : dangling.linkAt? ([] ++ ["gone"]) = none := by
      simp [FileTree.linkAt?, hnear, FileTree.walk_nil, entry_gone]
    rw [traceDangling, hl]

/-- The link leads to what is missing, and to no other link. -/
theorem traceDangling_mention (hops : Nat) :
    traceDangling dangling (hops + 1) [] "l" = some ⟨["gone"], [[["l"]]]⟩ := by
  have hl : dangling.linkAt? ([] ++ ["l"]) = some "gone" := linkAt?_oneLink _
  have hdetour : detour [] "gone" = ["gone"] := by
    rw [detour, show pieces "gone" = ["gone"] by decide]
    simp [FileTree.linkStart]
  have hreal : dangling.realPlace ["gone"] = .error .notFound := walk_gone _ _
  have htarget : tracePieces dangling (traceDangling dangling hops) ["gone"] = ⟨["gone"], []⟩ := by
    simp [tracePieces, traceStep, FileTree.isBlank, hreal, traceDangling_gone]
  rw [traceDangling, hl]
  simp only [hdetour, htarget]
  rfl

theorem foldl_mentions (hops n : Nat) (before : List Chain) :
    (mentions n).foldl (traceStep dangling (traceDangling dangling (hops + 1))) ⟨[], before⟩ =
      ⟨["gone"], before ++ List.replicate (n + 1) [["l"]]⟩ := by
  have hstep : ∀ before, traceStep dangling (traceDangling dangling (hops + 1)) ⟨[], before⟩ "l" =
      ⟨["gone"], before ++ [[["l"]]]⟩ := by
    intro before
    simp [traceStep, FileTree.isBlank, realPlace_mention, traceDangling_mention]
  induction n generalizing before with
  | zero => exact hstep before
  | succ n ih =>
    have hparent : ∀ r, traceStep dangling (traceDangling dangling (hops + 1)) r ".." =
        ⟨r.place.dropLast, r.chains⟩ := fun _ => rfl
    rw [mentions_succ, List.foldl_cons, hstep, List.foldl_cons, hparent]
    refine (ih (before ++ [[["l"]]])).trans ?_
    rw [List.append_assoc]
    rfl

/-- **No bound over chains.** The link is followed as often as the path names it. -/
theorem length_followed_mentions (cwd : String) (n : Nat) :
    (followed dangling cwd (Path.ofNames (mentions n))).length = n + 1 := by
  obtain ⟨rest, hrest⟩ := exists_mentions_eq_cons n
  have hpieces := FileTree.pieces_ofNames (hrest ▸ List.cons_ne_nil _ _) (noSlash_mentions n)
  have hreal : dangling.realPlace ("" :: mentions n) = .error .notFound := by
    rw [FileTree.realPlace, FileTree.walk_blank _ _ _ rfl (by decide), hrest]
    exact realPlace_mention rest
  have hblank : ∀ follow r, traceStep dangling follow r "" = r := fun _ _ => rfl
  rw [followed, trace, FileTree.join_ofNames, hpieces]
  simp only [tracePieces, hreal, List.foldl_cons, hblank, maxHops, foldl_mentions]
  simp

end DiagnosticBroker.Sandbox
