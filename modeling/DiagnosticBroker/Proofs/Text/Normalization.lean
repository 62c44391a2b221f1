import DiagnosticBroker.Proofs.Text.Escapes

/-!
# Addresses in their one form

An address is canonical if it is no address of a file, or the one that this program writes for a path
from the root. Whatever an address holds (escapes of bytes that are no text, percent signs that
escape nothing, a path that does not begin at the root), normalizing it gives a canonical one, and
those are left alone. The address of a path is canonical, too, also if the bytes of the path are no
text.

Results:
* `normalize_eq_self_iff`: the canonical addresses are those that normalizing leaves alone.
* `canonical_normalize`, `canonical_ofBytes`: where canonical addresses come from.
* `normalized_of_absolute`: normalizing twice, and normalizing what is written for a path.
-/

namespace DiagnosticBroker.Uri

variable {cwd u path : String}

/-! ## The specification -/

/-- An address in its one form. -/
inductive Canonical : String → Prop where
  | foreign {u : String} (h : u.startsWith scheme = false) : Canonical u
  | file {path : String} (h : path.startsWith "/" = true) :
      Canonical (scheme ++ String.ofList (encode path.toList))

/-- The bytes of a path, taken from the directory `cwd` unless it begins at the root. -/
def absoluteBytes (cwd : String) (path : List UInt8) : List UInt8 :=
  if path.head? = some 0x2F then path
  else if cwd.endsWith "/" then Utf8.encode cwd.toList ++ path
  else Utf8.encode cwd.toList ++ 0x2F :: path

/-- The address of a path that is given by its bytes, which need not be text. -/
def ofBytes (cwd : String) (path : List UInt8) : String :=
  scheme ++ String.ofList (encode (Utf8.lossy (absoluteBytes cwd path)))

/-! ## Paths from the root -/

theorem startsWith_slash_iff : path.startsWith "/" = true ↔ path.toList.head? = some '/' := by
  rw [String.startsWith_string_iff]
  show ['/'] <+: path.toList ↔ _
  cases path.toList with
  | nil => simp
  | cons c cs => simp [eq_comm]

theorem startsWith_absolute (hcwd : cwd.startsWith "/" = true) (path : String) :
    (absolute cwd path).startsWith "/" = true := by
  rw [startsWith_slash_iff] at hcwd
  rw [absolute]
  split_ifs with h h'
  · exact h
  · rw [startsWith_slash_iff, String.toList_append, List.head?_append, hcwd, Option.some_or]
  · rw [startsWith_slash_iff, String.toList_append, String.toList_append, List.head?_append,
      List.head?_append, hcwd, Option.some_or, Option.some_or]

/-! ## Bytes -/

theorem head?_encode_eq_some_iff {cs : List Char} :
    (Utf8.encode cs).head? = some 0x2F ↔ cs.head? = some '/' := by
  cases cs with
  | nil => simp [Utf8.encode]
  | cons c cs =>
    rw [Utf8.encode, List.flatMap_cons, List.head?_append, List.head?_cons]
    constructor
    · intro h
      have hmem : (0x2F : UInt8) ∈ String.utf8EncodeChar c := by
        cases hc : String.utf8EncodeChar c with
        | nil => exact absurd hc String.utf8EncodeChar_ne_nil
        | cons b bs =>
          rw [hc] at h
          cases h
          exact List.mem_cons_self
      exact congrArg some (Char.toNat_inj.mp (Utf8.toNat_of_mem_encodeChar hmem (by decide)))
    · intro h
      cases h
      rfl

theorem lossy_slash (rest : List UInt8) : Utf8.lossy (0x2F :: rest) = '/' :: Utf8.lossy rest := by
  have hnext : Utf8.next (0x2F :: rest) = .char '/' rest := Utf8.next_one (by decide)
  rw [Utf8.lossy]
  split <;> rename_i h <;> rw [hnext] at h <;> cases h
  rfl

theorem head?_absoluteBytes (hcwd : cwd.startsWith "/" = true) (path : List UInt8) :
    (absoluteBytes cwd path).head? = some 0x2F := by
  have hfirst : (Utf8.encode cwd.toList).head? = some 0x2F :=
    head?_encode_eq_some_iff.mpr (startsWith_slash_iff.mp hcwd)
  rw [absoluteBytes]
  split_ifs with h h'
  · exact h
  · rw [List.head?_append, hfirst, Option.some_or]
  · rw [List.head?_append, hfirst, Option.some_or]

/-- A path that is text has the address of the text. -/
theorem ofBytes_encode (cwd path : String) :
    ofBytes cwd (Utf8.encode path.toList) = ofPath cwd path := by
  have habsolute : absoluteBytes cwd (Utf8.encode path.toList) =
      Utf8.encode (absolute cwd path).toList := by
    simp only [absoluteBytes, absolute, head?_encode_eq_some_iff, ← startsWith_slash_iff]
    split_ifs
    · rfl
    · rw [String.toList_append, Utf8.encode_append]
    · rw [String.toList_append, String.toList_append, Utf8.encode_append, Utf8.encode_append,
        List.append_assoc]
      rfl
  rw [ofBytes, habsolute, Utf8.lossy_encode, ofPath]

/-! ## Canonical addresses -/

theorem canonical_ofPath (hcwd : cwd.startsWith "/" = true) (path : String) :
    Canonical (ofPath cwd path) := .file (startsWith_absolute hcwd path)

theorem canonical_ofBytes (hcwd : cwd.startsWith "/" = true) (path : List UInt8) :
    Canonical (ofBytes cwd path) := by
  obtain ⟨rest, hrest⟩ : ∃ rest, absoluteBytes cwd path = 0x2F :: rest := by
    have hhead := head?_absoluteBytes hcwd path
    cases hbytes : absoluteBytes cwd path with
    | nil =>
      rw [hbytes] at hhead
      cases hhead
    | cons b rest =>
      rw [hbytes] at hhead
      cases hhead
      exact ⟨rest, rfl⟩
  have hroot : (String.ofList (Utf8.lossy (absoluteBytes cwd path))).startsWith "/" = true := by
    rw [startsWith_slash_iff, String.toList_ofList, hrest, lossy_slash, List.head?_cons]
  have hcanonical := Canonical.file hroot
  rwa [String.toList_ofList] at hcanonical

/-- Normalizing gives a canonical address. -/
theorem canonical_normalize (hcwd : cwd.startsWith "/" = true) (u : String) :
    Canonical (normalize cwd u) := by
  rw [normalize]
  split_ifs with h
  · exact canonical_ofPath hcwd _
  · exact .foreign (Bool.eq_false_iff.mpr h)

theorem normalize_of_canonical (h : Canonical u) : normalize cwd u = u := by
  cases h with
  | foreign h => rw [normalize, if_neg (Bool.eq_false_iff.mp h)]
  | @file path h =>
    have hpath : ofPath cwd path = scheme ++ String.ofList (encode path.toList) := by
      rw [ofPath, absolute_of_startsWith h]
    rw [← hpath, normalize_ofPath h]

/-- The canonical addresses are those that normalizing leaves alone. -/
theorem normalize_eq_self_iff (hcwd : cwd.startsWith "/" = true) :
    normalize cwd u = u ↔ Canonical u := by
  constructor
  · intro h
    rw [← h]
    exact canonical_normalize hcwd u
  · exact normalize_of_canonical

/-- **Addresses in their one form.** In any directory from the root, normalizing an address, whatever
it is, gives a canonical one, which is normalized to itself; and so is what is written for a path,
whether it begins at the root or not, be it text or bytes that are none; bytes that are text have the
address of the text. The canonical addresses are just those that are normalized to themselves. -/
theorem normalized_of_absolute (hcwd : cwd.startsWith "/" = true) :
    (∀ u, normalize cwd (normalize cwd u) = normalize cwd u) ∧
    (∀ path, normalize cwd (ofPath cwd path) = ofPath cwd path) ∧
    (∀ bytes, normalize cwd (ofBytes cwd bytes) = ofBytes cwd bytes) ∧
    (∀ path : String, ofBytes cwd (Utf8.encode path.toList) = ofPath cwd path) ∧
    (∀ u, Canonical (normalize cwd u)) ∧ (∀ path, Canonical (ofPath cwd path)) ∧
    (∀ bytes, Canonical (ofBytes cwd bytes)) ∧
    ∀ u, normalize cwd u = u ↔ Canonical u := by
  refine ⟨?_, ?_, ?_, ofBytes_encode cwd, canonical_normalize hcwd, canonical_ofPath hcwd,
    canonical_ofBytes hcwd, ?_⟩
  · intro u
    apply normalize_of_canonical
    exact canonical_normalize hcwd u
  · intro path
    apply normalize_of_canonical
    exact canonical_ofPath hcwd path
  · intro bytes
    apply normalize_of_canonical
    exact canonical_ofBytes hcwd bytes
  · intro u
    exact normalize_eq_self_iff hcwd

/-- A path that does not begin at the root, with a percent sign that escapes nothing, an escape of a
percent sign and an escape of a byte that is no text. -/
theorem normalized_of_absolute_malformed :
    normalize "/repo" "file://a%zz%2541%ff" = "file:///repo/a%25%2541%EF%BF%BD" ∧
      normalize "/repo" "file:///repo/a%25%2541%EF%BF%BD" = "file:///repo/a%25%2541%EF%BF%BD" := by
  have hcwd : "/repo".startsWith "/" = true := by decide +kernel
  have hfirst : normalize "/repo" "file://a%zz%2541%ff" = "file:///repo/a%25%2541%EF%BF%BD" := by
    decide +kernel
  have htwice := (normalized_of_absolute hcwd).1 "file://a%zz%2541%ff"
  rw [hfirst] at htwice
  exact ⟨hfirst, htwice⟩

end DiagnosticBroker.Uri
