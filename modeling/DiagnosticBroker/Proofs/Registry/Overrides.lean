import DiagnosticBroker.CommandLine
import DiagnosticBroker.Registry
import DiagnosticBroker.Settings.Load
import Mathlib.Data.List.Nodup

/-!
# Which row counts

The table of backends is made from the built-in rows, those of the global file and those of the file
that is named, in this order. For each extension the last row counts that is for it: rows are compared
in their kept form, and what is looked up, in lower case.

Results:
* `applyAll_eq_error_iff`, `exists_applyAll_iff`: when a table cannot be made, and why.
* `lookup?_applyAll`: what rows do to a look-up.
* `lookup?_defaults`: the built-in rows.
* `found_of_settings`: which backend serves an extension.
-/

namespace DiagnosticBroker

/-- The backend that a row of a settings file describes. -/
def BackendEntry.backend (e : BackendEntry) : Backend :=
  .new e.command (if e.extensions.isEmpty then [e.extension] else e.extensions) e.languageId

/-- Why a row with an empty command is refused. -/
def BackendEntry.refusal (e : BackendEntry) : Fault :=
  .protocol s!"Backend for '{e.extension}' has an empty command"

namespace Registry

variable {r r' : Registry} {e : BackendEntry} {es : List BackendEntry} {x : String} {f : Fault}

/-! ## The specification -/

/-- The rows for an extension in its kept form. -/
def rowsFor (es : List BackendEntry) (x : String) : List BackendEntry :=
  es.filter fun e => normalizeExtension e.extension = x

/-- The backend for an extension in its kept form: that of the last row of the file that is named,
else of the last row of the global file, else the built-in one. -/
def choice (global named : List BackendEntry) (x : String) : Option Backend :=
  ((rowsFor named x).getLast?.map (·.backend)).or
    (((rowsFor global x).getLast?.map (·.backend)).or (builtIn.lookup x))

/-! ## One row -/

theorem apply_of_empty (h : e.command.isEmpty = true) : r.apply e = .error e.refusal := by
  rw [apply, if_pos h]
  rfl

theorem apply_of_nonempty (h : ¬ e.command.isEmpty = true) :
    r.apply e = .ok (r.insert e.extension e.backend) := by
  rw [apply, if_neg h]
  rfl

/-! ## All rows -/

/-- A table cannot be made if and only if some row has an empty command, and the first such row is
blamed. -/
theorem applyAll_eq_error_iff :
    r.applyAll es = .error f ↔
      ∃ e, es.find? (fun e => e.command.isEmpty) = some e ∧ f = e.refusal := by
  induction es generalizing r with
  | nil =>
    constructor
    · intro h
      cases h
    · rintro ⟨e, he, -⟩
      cases he
  | cons e es ih =>
    by_cases hc : e.command.isEmpty = true
    · have hfind : (e :: es).find? (fun e => e.command.isEmpty) = some e :=
        List.find?_cons_of_pos hc
      rw [applyAll, apply_of_empty hc, hfind]
      constructor
      · intro h
        cases h
        exact ⟨e, rfl, rfl⟩
      · rintro ⟨_, he, rfl⟩
        cases he
        rfl
    · have hfind : (e :: es).find? (fun e => e.command.isEmpty) =
          es.find? fun e => e.command.isEmpty := List.find?_cons_of_neg hc
      rw [applyAll, apply_of_nonempty hc, hfind]
      exact ih

theorem exists_applyAll_iff :
    (∃ r', r.applyAll es = .ok r') ↔ ∀ e ∈ es, e.command ≠ [] := by
  have hnone : (∀ e ∈ es, e.command ≠ []) ↔ es.find? (fun e => e.command.isEmpty) = none := by
    simp [List.find?_eq_none]
  rw [hnone]
  cases h : r.applyAll es with
  | ok r' =>
    refine ⟨fun _ => ?_, fun _ => ⟨r', rfl⟩⟩
    by_contra hne
    obtain ⟨e, he⟩ := Option.ne_none_iff_exists'.mp hne
    rw [applyAll_eq_error_iff.mpr ⟨e, he, rfl⟩] at h
    cases h
  | error f =>
    obtain ⟨e, he, -⟩ := applyAll_eq_error_iff.mp h
    rw [he]
    constructor
    · rintro ⟨r', h'⟩
      cases h'
    · intro h'
      cases h'

/-- What rows do to a look-up: the last one for the extension counts. -/
theorem lookup?_applyAll (h : r.applyAll es = .ok r') (x : String) :
    r'.lookup? x = ((rowsFor es x).getLast?.map (·.backend)).or (r.lookup? x) := by
  induction es generalizing r with
  | nil =>
    cases h
    rfl
  | cons e es ih =>
    have hc : e.command ≠ [] := exists_applyAll_iff.mp ⟨r', h⟩ e List.mem_cons_self
    rw [applyAll, apply_of_nonempty (by rwa [List.isEmpty_iff])] at h
    rw [ih h, lookup?_insert, rowsFor, rowsFor]
    by_cases hx : normalizeExtension e.extension = x
    · rw [if_pos hx.symm, List.filter_cons_of_pos (by simpa using hx), List.getLast?_cons]
      cases (List.filter (fun e => decide (normalizeExtension e.extension = x)) es).getLast? <;> rfl
    · rw [if_neg (Ne.symm hx), List.filter_cons_of_neg (by simpa using hx)]

/-- The built-in rows are found under their extensions. -/
theorem lookup?_defaults (x : String) : defaults.lookup? x = builtIn.lookup x := by
  have hrows : defaults.rows = builtIn.reverse := by decide +kernel
  have hkeys : (builtIn.map (·.1)).Nodup := by decide +kernel
  have hkeys' : (builtIn.reverse.map (·.1)).Nodup := by
    rw [List.map_reverse]
    exact List.nodup_reverse.mpr hkeys
  rw [lookup?, hrows]
  apply Option.ext
  intro b
  constructor
  · intro h
    exact Assoc.lookup_of_mem hkeys (List.mem_reverse.mp (Assoc.mem_of_lookup h))
  · intro h
    exact Assoc.lookup_of_mem hkeys' (List.mem_reverse.mpr (Assoc.mem_of_lookup h))

theorem lookup?_of_entries {global named : List BackendEntry}
    (h : ofEntries (global ++ named) = .ok r) (x : String) : r.lookup? x = choice global named x := by
  rw [lookup?_applyAll h, lookup?_defaults, choice, rowsFor, List.filter_append,
    List.getLast?_append, Option.map_or, Option.or_assoc]
  rfl

/-! ## Settings -/

open CommandLine (Options)

/-- The settings that a program runs with: those of the file that is named over those of the global
file, then the environment, then the command line. -/
def effective (env : Settings.Environment) (o : Options) (global named : Settings) : Settings :=
  o.apply (Settings.applyEnvironment env (Settings.overlay global named))

theorem backends_effective (env : Settings.Environment) (o : Options) (global named : Settings) :
    (effective env o global named).backends = global.backends ++ named.backends := by
  rw [effective, Options.apply]
  cases o.diagnosticsTimeoutMs <;> rfl

theorem find_eq (r : Registry) (x : String) :
    r.find x = ((r.lookup? (Text.lowercase x)).map Except.ok).getD
      (.error (.unsupportedExtension x)) := by
  rw [find]
  cases r.lookup? (Text.lowercase x) <;> rfl

/-- **Which backend serves an extension.** Whatever the global file and the file that is named say, a
table cannot be made of their rows if and only if one of them has an empty command, and the fault
tells the first one. If it is made, then the backend for an extension is that of the last row of the
file that is named whose extension is the same in the kept form, else of the last such row of the
global file, else the built-in one, and without any the extension is refused. Rows for other
extensions make no difference. -/
theorem found_of_settings (env : Settings.Environment) (o : Options) (global named : Settings) :
    (∀ f, ofEntries (effective env o global named).backends = .error f ↔
      ∃ e, (global.backends ++ named.backends).find? (fun e => e.command.isEmpty) = some e ∧
        f = e.refusal) ∧
    ((∃ r, ofEntries (effective env o global named).backends = .ok r) ↔
      ∀ e ∈ global.backends ++ named.backends, e.command ≠ []) ∧
    ∀ r, ofEntries (effective env o global named).backends = .ok r → ∀ x,
      r.find x =
        ((choice global.backends named.backends (Text.lowercase x)).map Except.ok).getD
          (.error (.unsupportedExtension x)) ∧
      ∀ global' named' r', ofEntries (global' ++ named') = .ok r' →
        rowsFor global' (Text.lowercase x) = rowsFor global.backends (Text.lowercase x) →
        rowsFor named' (Text.lowercase x) = rowsFor named.backends (Text.lowercase x) →
        r'.find x = r.find x := by
  rw [backends_effective]
  refine ⟨fun f => applyAll_eq_error_iff, exists_applyAll_iff, fun r hr x => ⟨?_, ?_⟩⟩
  · rw [find_eq, lookup?_of_entries hr]
  · intro global' named' r' hr' hglobal hnamed
    rw [find_eq, find_eq, lookup?_of_entries hr, lookup?_of_entries hr', choice, choice, hglobal,
      hnamed]

/-- Rows for one extension in several spellings: the last one that is named counts. -/
theorem found_of_settings_spelled :
    ∃ r, ofEntries (effective [] ⟨[], none, none, false⟩
        { backends := [⟨"RS", ["first"], [], "rust"⟩, ⟨".zz", ["global"], [], "zz"⟩] }
        { backends := [⟨".rs", ["second"], [], "rust"⟩, ⟨" .Rs", ["third"], [], "rust"⟩] }).backends =
          .ok r ∧
      r.find ".rS" = .ok ⟨["third"], [".rs"], "rust"⟩ ∧ r.find ".ZZ" = .ok ⟨["global"], [".zz"], "zz"⟩ ∧
      r.find "py" = .error (.unsupportedExtension "py") := by
  obtain ⟨-, hmade, hfound⟩ := found_of_settings [] ⟨[], none, none, false⟩
    { backends := [⟨"RS", ["first"], [], "rust"⟩, ⟨".zz", ["global"], [], "zz"⟩] }
    { backends := [⟨".rs", ["second"], [], "rust"⟩, ⟨" .Rs", ["third"], [], "rust"⟩] }
  obtain ⟨r, hr⟩ := hmade.mpr (by decide)
  refine ⟨r, hr, ?_, ?_, ?_⟩
  · rw [(hfound r hr ".rS").1]
    decide +kernel
  · rw [(hfound r hr ".ZZ").1]
    decide +kernel
  · rw [(hfound r hr "py").1]
    decide +kernel

end Registry

end DiagnosticBroker
