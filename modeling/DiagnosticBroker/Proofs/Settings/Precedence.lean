import DiagnosticBroker.CommandLine
import DiagnosticBroker.Proofs.Json.Records
import DiagnosticBroker.Settings.Load
import Mathlib

/-!
# Where the value of a setting comes from

A setting has the value of the command line, else that of the environment, else that of the file that
is named, else its default. The global file has a say only if no file is named: the file that is named
takes its place as far as settings are concerned, also for those that it leaves out.

Results:
* `value_of_decode`: the settings of a file are what its document says, else the defaults.
* `value_apply`, `value_applyEnvironment`, `value_overlay`: what each source leaves of the others.
* `precedence`: where the value of a setting comes from.
-/

namespace DiagnosticBroker

open Json (Fields Key)

/-! ## Settings and their values -/

/-- A single setting: the field of its section, and its field there. -/
structure Setting where
  group : Key
  field : Key

def BackendSettings.keys : List Key :=
  Json.keys ["timeout_secs", "diagnostics_timeout_ms", "settle_ms", "silence_is_clean", "max_restarts",
    "retention_secs", "max_file_size_mb", "auto_restart"]

def ServerSettings.keys : List Key := Json.keys ["max_concurrent", "idle_timeout_mins"]

namespace Setting

/-- All settings but the table of backends. -/
def all : List Setting :=
  BackendSettings.keys.map (⟨⟨0, "lsp"⟩, ·⟩) ++ ServerSettings.keys.map (⟨⟨1, "server"⟩, ·⟩)

/-- What a document says of a setting. -/
def inDocument (x : Setting) (doc : Json) : Option Json :=
  (doc.field? x.group).bind (·.field? x.field)

/-- The value that a setting has. -/
def value? (x : Setting) (s : Settings) : Option Json := x.inDocument s.encode

/-- What the environment says of a setting, as far as it can be read. -/
def inEnvironment (x : Setting) (env : Settings.Environment) : Option Json :=
  match x.field.name with
  | "timeout_secs" =>
    ((env.lookup "LANGCHECK_LSP_TIMEOUT").bind Numeral.readU64?).map .nat
  | "diagnostics_timeout_ms" =>
    ((env.lookup "LANGCHECK_DIAGNOSTICS_TIMEOUT_MS").bind Numeral.readU64?).map .nat
  | "silence_is_clean" =>
    ((env.lookup "LANGCHECK_SILENCE_IS_CLEAN").bind Settings.readSwitch?).map .bool
  | _ => none

/-- What the command line says of a setting. -/
def inOptions (x : Setting) (o : CommandLine.Options) : Option Json :=
  match x.field.name with
  | "diagnostics_timeout_ms" => o.diagnosticsTimeoutMs.map .nat
  | _ => none

end Setting

/-! ## Decoded documents -/

theorem BackendSettings.field_of_decode {k : Key} (hk : k ∈ keys) {j : Json} {b : BackendSettings}
    (h : decode j = .ok b) :
    b.encode.field? k = (j.field? k).or (({} : BackendSettings).encode.field? k) := by
  obtain ⟨source, h₇, hsource⟩ := Fields.record_eq_ok h
  obtain ⟨_, autoRestart, h₆, hautoRestart, rfl⟩ := Fields.run_seq h₇
  obtain ⟨_, maxFileSizeMb, h₅, hmaxFileSizeMb, rfl⟩ := Fields.run_seq h₆
  obtain ⟨_, retentionSecs, h₄, hretentionSecs, rfl⟩ := Fields.run_seq h₅
  obtain ⟨_, maxRestarts, h₃, hmaxRestarts, rfl⟩ := Fields.run_seq h₄
  obtain ⟨_, silenceIsClean, h₂, hsilenceIsClean, rfl⟩ := Fields.run_seq h₃
  obtain ⟨_, settleMs, h₁, hsettleMs, rfl⟩ := Fields.run_seq h₂
  obtain ⟨_, diagnosticsTimeoutMs, h₀, hdiagnosticsTimeoutMs, rfl⟩ := Fields.run_seq h₁
  obtain ⟨timeoutSecs, htimeoutSecs, rfl⟩ := Fields.run_map h₀
  have hfield : ∀ {k : Key} {a default : Json}, a = (source.field? k).getD default →
      some a = (j.field? k).or (some default) := by
    intro k a default ha
    rw [Option.or_some, ← hsource, ha]
  simp only [keys, Json.keys, List.zipIdx_cons, List.zipIdx_nil, List.map_cons, List.map_nil,
    List.mem_cons, List.not_mem_nil, or_false] at hk
  rcases hk with rfl | rfl | rfl | rfl | rfl | rfl | rfl | rfl
  · exact hfield (Fields.encode_of_defaulted (Json.faithful_natural _ _) htimeoutSecs)
  · exact hfield (Fields.encode_of_defaulted (Json.faithful_natural _ _) hdiagnosticsTimeoutMs)
  · exact hfield (Fields.encode_of_defaulted (Json.faithful_natural _ _) hsettleMs)
  · exact hfield (Fields.encode_of_defaulted Json.faithful_bool hsilenceIsClean)
  · exact hfield (Fields.encode_of_defaulted (Json.faithful_natural _ _) hmaxRestarts)
  · exact hfield (Fields.encode_of_defaulted (Json.faithful_natural _ _) hretentionSecs)
  · exact hfield (Fields.encode_of_defaulted (Json.faithful_natural _ _) hmaxFileSizeMb)
  · exact hfield (Fields.encode_of_defaulted Json.faithful_bool hautoRestart)

theorem ServerSettings.field_of_decode {k : Key} (hk : k ∈ keys) {j : Json} {b : ServerSettings}
    (h : decode j = .ok b) :
    b.encode.field? k = (j.field? k).or (({} : ServerSettings).encode.field? k) := by
  obtain ⟨source, h₁, hsource⟩ := Fields.record_eq_ok h
  obtain ⟨_, idleTimeoutMins, h₀, hidleTimeoutMins, rfl⟩ := Fields.run_seq h₁
  obtain ⟨maxConcurrent, hmaxConcurrent, rfl⟩ := Fields.run_map h₀
  have hfield : ∀ {k : Key} {a default : Json}, a = (source.field? k).getD default →
      some a = (j.field? k).or (some default) := by
    intro k a default ha
    rw [Option.or_some, ← hsource, ha]
  simp only [keys, Json.keys, List.zipIdx_cons, List.zipIdx_nil, List.map_cons, List.map_nil,
    List.mem_cons, List.not_mem_nil, or_false] at hk
  rcases hk with rfl | rfl
  · exact hfield (Fields.encode_of_defaulted (Json.faithful_natural _ _) hmaxConcurrent)
  · exact hfield (Fields.encode_of_defaulted (Json.faithful_natural _ _) hidleTimeoutMins)

namespace Setting

variable {x : Setting}

/-- The settings of a file are what its document says, else the defaults. -/
theorem value_of_decode (hx : x ∈ all) {doc : Json} {s : Settings}
    (h : Settings.decode doc = .ok s) :
    x.value? s = (x.inDocument doc).or (x.value? {}) := by
  obtain ⟨source, h₂, hsource⟩ := Fields.record_eq_ok h
  obtain ⟨_, backends, h₁, -, rfl⟩ := Fields.run_seq h₂
  obtain ⟨_, server, h₀, hserver, rfl⟩ := Fields.run_seq h₁
  obtain ⟨lsp, hlsp, rfl⟩ := Fields.run_map h₀
  rcases List.mem_append.mp hx with hx | hx <;> obtain ⟨k, hk, rfl⟩ := List.mem_map.mp hx
  · have hfield := Fields.field_of_defaulted (BackendSettings.field_of_decode hk) hlsp
    rw [hsource] at hfield
    exact hfield
  · have hfield := Fields.field_of_defaulted (ServerSettings.field_of_decode hk) hserver
    rw [hsource] at hfield
    exact hfield

/-! ## One source over the other -/

/-- A setting is that of the file on top, also if this one leaves it out. -/
theorem value_overlay (hx : x ∈ all) (base top : Settings) :
    x.value? (Settings.overlay base top) = x.value? top := by
  rcases List.mem_append.mp hx with hx | hx <;> obtain ⟨k, hk, rfl⟩ := List.mem_map.mp hx <;> rfl

theorem value_applyEnvironment (hx : x ∈ all) (env : Settings.Environment) (s : Settings) :
    x.value? (Settings.applyEnvironment env s) = (x.inEnvironment env).or (x.value? s) := by
  have hor : ∀ {α : Type} {encode : α → Json} {o : Option α} {a : α},
      some (encode (o.getD a)) = (o.map encode).or (some (encode a)) := by
    intro α encode o a
    cases o <;> rfl
  simp only [all, BackendSettings.keys, ServerSettings.keys, Json.keys, List.zipIdx_cons,
    List.zipIdx_nil, List.map_cons, List.map_nil, List.cons_append, List.nil_append, List.mem_cons,
    List.not_mem_nil, or_false] at hx
  rcases hx with rfl | rfl | rfl | rfl | rfl | rfl | rfl | rfl | rfl | rfl
  case inl => exact hor
  case inr.inl => exact hor
  case inr.inr.inr.inl => exact hor
  all_goals rfl

theorem value_apply (hx : x ∈ all) (o : CommandLine.Options) (s : Settings) :
    x.value? (o.apply s) = (x.inOptions o).or (x.value? s) := by
  unfold CommandLine.Options.apply inOptions
  simp only [all, BackendSettings.keys, ServerSettings.keys, Json.keys, List.zipIdx_cons,
    List.zipIdx_nil, List.map_cons, List.map_nil, List.cons_append, List.nil_append, List.mem_cons,
    List.not_mem_nil, or_false] at hx
  cases o.diagnosticsTimeoutMs <;>
    rcases hx with rfl | rfl | rfl | rfl | rfl | rfl | rfl | rfl | rfl | rfl <;> rfl

end Setting

/-! ## Files -/

namespace Settings

variable {t : FileTree} {cwd : String}

/-- The document in a file. -/
def document? (t : FileTree) (cwd path : String) : Option Json :=
  match t.content cwd path with
  | .error _ => none
  | .ok bytes =>
    match Utf8.decodeArray bytes with
    | .error _ => none
    | .ok text => Toml.read? text.toList

/-- A file holds a document of settings. -/
def Parses (t : FileTree) (cwd path : String) : Prop :=
  ∃ doc s, document? t cwd path = some doc ∧ decode doc = .ok s

/-- What a file says of a setting, if it exists. -/
def inFile (x : Setting) (t : FileTree) (cwd path : String) : Option Json :=
  if t.pathExists cwd path then (document? t cwd path).bind x.inDocument else none

theorem document_of_text {path text : String} (h : t.content cwd path = .ok text.toUTF8) :
    document? t cwd path = Toml.read? text.toList := by
  have hdecode : String.fromUTF8? text.toUTF8 = some text := dif_pos text.isValidUTF8
  rw [document?, h]
  simp only [Utf8.decodeArray, hdecode]

theorem ofFile_of_document {path : String} {doc : Json} (h : document? t cwd path = some doc) :
    ofFile t cwd path =
      (decode doc).mapError fun e => .parse s!"{path}: {e.message}" := by
  unfold document? at h
  unfold ofFile
  cases hc : t.content cwd path with
  | error e => rw [hc] at h; cases h
  | ok bytes =>
    rw [hc] at h
    cases hb : Utf8.decodeArray bytes with
    | error e => simp only [hb] at h; cases h
    | ok text =>
      simp only [hb] at h ⊢
      rw [ofText, h]

/-- The settings of an existing file that parses. -/
theorem ofFile_of_parses {path : String} (h : Parses t cwd path)
    (he : t.pathExists cwd path = true) :
    ∃ s, ofFile t cwd path = .ok s ∧
      ∀ x ∈ Setting.all, x.value? s = (inFile x t cwd path).or (x.value? {}) := by
  obtain ⟨doc, s, hdoc, hs⟩ := h
  refine ⟨s, by rw [ofFile_of_document hdoc, hs]; rfl, fun x hx => ?_⟩
  rw [inFile, if_pos he, hdoc, Option.bind_some]
  exact Setting.value_of_decode hx hs

theorem loadGlobal_of_parses {path : String}
    (h : t.pathExists cwd path = true → Parses t cwd path) :
    ∃ s, loadGlobal t cwd path = .ok s ∧
      ∀ x ∈ Setting.all, x.value? s = (inFile x t cwd path).or (x.value? {}) := by
  unfold loadGlobal
  by_cases he : t.pathExists cwd path = true
  · rw [if_pos he]
    exact ofFile_of_parses (h he) he
  · rw [if_neg he]
    refine ⟨{}, rfl, fun x hx => ?_⟩
    rw [inFile, if_neg he, Option.none_or]

/-- The value that a setting has when loaded from the environment and from files. -/
theorem load_of_parses (env : Environment) {globalFile : String} {explicit : Option String}
    (hglobal : t.pathExists cwd globalFile = true → Parses t cwd globalFile)
    (hexplicit : ∀ path, explicit = some path → t.pathExists cwd path = true ∧ Parses t cwd path) :
    ∃ s, load t cwd env globalFile explicit = .ok s ∧ ∀ x ∈ Setting.all,
      x.value? s =
        (x.inEnvironment env).or ((inFile x t cwd (explicit.getD globalFile)).or (x.value? {})) := by
  obtain ⟨base, hbase, hvalue⟩ := loadGlobal_of_parses hglobal
  obtain ⟨s, hs, hfiles⟩ : ∃ s, loadExplicit t cwd explicit base = .ok s ∧ ∀ x ∈ Setting.all,
      x.value? s = (inFile x t cwd (explicit.getD globalFile)).or (x.value? {}) := by
    cases explicit with
    | none => exact ⟨base, rfl, hvalue⟩
    | some path =>
      obtain ⟨he, hp⟩ := hexplicit path rfl
      obtain ⟨top, htop, hvalue⟩ := ofFile_of_parses hp he
      refine ⟨overlay base top, by rw [loadExplicit, if_pos he, htop]; rfl, fun x hx => ?_⟩
      rw [Setting.value_overlay hx, hvalue x hx]
      rfl
  refine ⟨applyEnvironment env s, ?_, fun x hx => ?_⟩
  · rw [load, hbase]
    change (loadExplicit t cwd explicit base).bind _ = _
    rw [hs]
    rfl
  · rw [Setting.value_applyEnvironment hx, hfiles x hx]

/-- **Precedence.** If the global file parses or is missing, and a file that is named exists and
parses, then settings can be loaded, and each has the value of the command line, else that of the
environment, else that of the file that is named, or of the global file if none is named, else its
default. That is the value of the highest source that sets it if no file is named, if the command
line, the environment or the file that is named sets it, or if the global file leaves the default,
and in no other case. -/
theorem precedence (env : Environment) (o : CommandLine.Options) {globalFile : String}
    {explicit : Option String}
    (hglobal : t.pathExists cwd globalFile = true → Parses t cwd globalFile)
    (hexplicit : ∀ path, explicit = some path → t.pathExists cwd path = true ∧ Parses t cwd path) :
    ∃ s, load t cwd env globalFile explicit = .ok s ∧ ∀ x ∈ Setting.all,
      x.value? (o.apply s) = (x.inOptions o).or ((x.inEnvironment env).or
        ((inFile x t cwd (explicit.getD globalFile)).or (x.value? {}))) ∧
      (x.value? (o.apply s) = (x.inOptions o).or ((x.inEnvironment env).or
          ((explicit.bind (inFile x t cwd)).or ((inFile x t cwd globalFile).or (x.value? {})))) ↔
        explicit = none ∨
          ((x.inOptions o).or ((x.inEnvironment env).or (explicit.bind (inFile x t cwd)))).isSome ∨
          (inFile x t cwd globalFile).or (x.value? {}) = x.value? {}) := by
  obtain ⟨s, hs, hvalue⟩ := load_of_parses env hglobal hexplicit
  refine ⟨s, hs, fun x hx => ?_⟩
  have hvalue' := Setting.value_apply hx o s
  rw [hvalue x hx] at hvalue'
  refine ⟨hvalue', ?_⟩
  rw [hvalue']
  cases explicit with
  | none => simp
  | some path =>
    cases x.inOptions o with
    | some j => simp
    | none =>
      cases x.inEnvironment env with
      | some j => simp
      | none =>
        simp only [Option.getD_some, Option.bind_some, Option.none_or, reduceCtorEq, false_or]
        cases inFile x t cwd path with
        | some j => simp
        | none =>
          simp only [Option.none_or, Option.isSome_none, Bool.false_eq_true, false_or]
          exact eq_comm

/-- A global file, and one to name. -/
def twoFiles : FileTree :=
  ⟨[(["global"], .file "[lsp]\nsettle_ms = 40\n".toUTF8),
    (["named"], .file "[lsp]\ntimeout_secs = 7\n".toUTF8)]⟩

/-- What the global file sets has no effect if a file is named that leaves it out. -/
theorem precedence_named :
    ∃ s, load twoFiles "/" [] "/global" (some "/named") = .ok s ∧
      Setting.value? ⟨⟨0, "lsp"⟩, ⟨2, "settle_ms"⟩⟩ s = some (.nat 150) := by
  have hglobal : document? twoFiles "/" "/global" =
      some (.obj [("lsp", .obj [("settle_ms", .nat 40)])]) := by
    have hcontent : twoFiles.content "/" "/global" = .ok "[lsp]\nsettle_ms = 40\n".toUTF8 := by cbv
    rw [document_of_text hcontent]
    cbv
  have hnamed : document? twoFiles "/" "/named" =
      some (.obj [("lsp", .obj [("timeout_secs", .nat 7)])]) := by
    have hcontent : twoFiles.content "/" "/named" = .ok "[lsp]\ntimeout_secs = 7\n".toUTF8 := by cbv
    rw [document_of_text hcontent]
    cbv
  have hexists : twoFiles.pathExists "/" "/named" = true := by cbv
  obtain ⟨s, hs, hvalue⟩ := precedence [] ⟨[], some "/named", none, false⟩
    (fun _ => ⟨_, _, hglobal, rfl⟩) fun path hpath => by
      obtain rfl := Option.some.inj hpath
      exact ⟨hexists, _, _, hnamed, rfl⟩
  refine ⟨s, hs, (hvalue ⟨⟨0, "lsp"⟩, ⟨2, "settle_ms"⟩⟩ ?_).1.trans ?_⟩
  · simp [Setting.all, BackendSettings.keys, Json.keys]
  · rw [Option.getD_some, inFile, if_pos hexists, hnamed]
    rfl

end Settings

end DiagnosticBroker
