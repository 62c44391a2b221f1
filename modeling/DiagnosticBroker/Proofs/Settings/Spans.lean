import DiagnosticBroker.Budget
import DiagnosticBroker.Proofs.Binary64.Whole
import DiagnosticBroker.Proofs.Json.Records
import DiagnosticBroker.Tool.Server
import Mathlib.Algebra.Order.BigOperators.Group.List

/-!
# What settings come to

All settings that can be decoded give times, counts and a limit of bytes. They are computed here
without a bound, in nanoseconds (`Settings.timeoutNanos`, `Settings.startNanos`,
`Settings.checkNanos`); what the program computes in steps, each of which stays at the longest
duration, is the same number held at the longest duration once.

The number of tasks is the only thing that has no upper bound of its own. There is no server for
more tasks than a `Semaphore` has permits: making one panics.

Results:
* `clamp_add`, `clamp_add_clamp`, `clamp_mul`: holding the parts at the longest duration makes no
  difference.
* `timeoutFor_eq`, `startBudget_eq`, `validationBudget_eq`: the times.
* `fits_of_decode`: the bounds of decoded settings.
* `isSome_ofPolicy?_iff`: when there is a server.
* `spans_of_decode`: what decoded settings come to.
-/

namespace DiagnosticBroker

/-! ## Durations -/

namespace Duration

theorem clamp_add (n : Nat) (d : Duration) : (clamp n).add d = clamp (n + d.nanos) := by
  simp only [add, clamp, mk.injEq]
  omega

theorem clamp_add_clamp (m n : Nat) : (clamp m).add (clamp n) = clamp (m + n) := by
  simp only [add, clamp, mk.injEq]
  omega

theorem clamp_mul (n : Nat) {k : Nat} (hk : 0 < k) : (clamp n).mul k = clamp (n * k) := by
  simp only [mul, clamp, mk.injEq]
  rcases Nat.le_total n max.nanos with hn | hn
  · rw [Nat.min_eq_left hn]
  · have hle : max.nanos ≤ max.nanos * k := Nat.le_mul_of_pos_right _ hk
    rw [Nat.min_eq_right hn, Nat.min_eq_right hle,
      Nat.min_eq_right (Nat.le_trans hle (Nat.mul_le_mul_right k hn))]

theorem clamp_le (n : Nat) : clamp n ≤ .max := Nat.min_le_right _ _

theorem clamp_of_le {n : Nat} (h : n ≤ max.nanos) : clamp n = ⟨n⟩ := by
  rw [clamp, Nat.min_eq_left h]

theorem clamp_of_ge {n : Nat} (h : max.nanos ≤ n) : clamp n = .max := by
  rw [clamp, Nat.min_eq_right h]

/-- All seconds that a word can count are less than the longest duration. -/
theorem ofSeconds_eq {n : Nat} (h : n ≤ Word.maxU64) : ofSeconds n = ⟨n * nanosPerSecond⟩ :=
  clamp_of_le (by simp only [max, nanosPerSecond]; omega)

theorem ofMillis_eq {n : Nat} (h : n ≤ Word.maxU64) : ofMillis n = ⟨n * nanosPerMilli⟩ :=
  clamp_of_le (by simp only [max, nanosPerSecond, nanosPerMilli]; omega)

/-- Durations that are added one after the other are held at the longest duration once. -/
theorem foldl_add_clamp {ι : Type} (f : ι → Duration) (ks : List ι) (n : Nat) :
    ks.foldl (fun d k => d.add (f k)) (clamp n) =
      clamp (n + (ks.map fun k => (f k).nanos).sum) := by
  induction ks generalizing n with
  | nil => rfl
  | cons k ks ih =>
    rw [List.foldl_cons, clamp_add, ih, List.map_cons, List.sum_cons, Nat.add_assoc]

end Duration

open Duration (nanosPerSecond nanosPerMilli)

/-! ## Pauses and requests -/

theorem Backoff.total_eq (b : Backoff) :
    b.total =
      .clamp ((List.range (b.attempts - 1)).map fun k => (b.delayBefore (k + 1)).nanos).sum := by
  have hzero : Duration.zero = .clamp 0 := rfl
  rw [total, hzero, Duration.foldl_add_clamp, Nat.zero_add]

/-- No pause is longer than the longest one. -/
theorem Backoff.delayBefore_le (b : Backoff) (k : Nat) :
    (b.delayBefore k).nanos ≤ b.maxDelay.nanos := by
  cases k with
  | zero => exact Nat.zero_le _
  | succ k =>
    rw [delayBefore]
    show (if _ then _ else _ : Duration).nanos ≤ _
    split_ifs with h
    · exact h
    · exact Nat.le_refl _

namespace Operation

/-- The nanoseconds that are allowed for each second of the base time. -/
def nanosPerBase : Operation → Nat
  | request => nanosPerSecond
  | initialization => 2 * nanosPerSecond
  | shutdown => nanosPerSecond / 2

/-- A factor only changes the exponent. -/
theorem factor_eq (o : Operation) :
    ∃ shift : Int, o.factor = .finite false Binary64.leastMantissa (shift - 52) ∧
      -1 ≤ shift ∧ shift ≤ 1 ∧
      nanosPerSecond * 2 ^ shift.toNat = o.nanosPerBase * 2 ^ (-shift).toNat := by
  cases o with
  | request => exact ⟨0, by decide +kernel, by decide, by decide, rfl⟩
  | initialization => exact ⟨1, by decide +kernel, by decide, by decide, rfl⟩
  | shutdown => exact ⟨-1, by decide +kernel, by decide, by decide, rfl⟩

end Operation

namespace Budget

open Binary64 (IsNormal nearest)

theorem secondsOf_eq {n : Nat} (hn : n ≤ Word.maxU64) :
    secondsOf (.ofSeconds n) = Binary64.ofNat n := by
  have hseconds : (Duration.ofSeconds n).seconds = n := by
    rw [Duration.seconds, Duration.ofSeconds_eq hn, Nat.mul_div_cancel _ (by decide)]
  have hsubsecond : (Duration.ofSeconds n).subsecond = 0 := by
    rw [Duration.subsecond, Duration.ofSeconds_eq hn, Nat.mul_mod_left]
  have hfraction : (Binary64.ofNat 0).divFinite (Binary64.ofNat nanosPerSecond) = .zero false := by
    decide +kernel
  rw [secondsOf, hseconds, hsubsecond, hfraction]
  rcases Nat.eq_zero_or_pos n with rfl | hpos
  · decide +kernel
  · obtain ⟨m, e, heq, hleast, hmost, hlow, hhigh, -⟩ := Binary64.ofNat_eq hpos hn
    rw [heq]
    exact Binary64.addFinite_zero
      ⟨hleast, hmost, by rw [Binary64.minExponent]; omega, by rw [Binary64.maxExponent]; omega⟩

/-- A second of the base time counts as long as the kind of request says. -/
theorem durationOf_mul_factor {n : Nat} (hn : n ≤ Word.maxU64) (o : Operation) :
    durationOf ((Binary64.ofNat n).mul o.factor) = .clamp (nearest n * o.nanosPerBase) := by
  rcases Nat.eq_zero_or_pos n with rfl | hpos
  · cases o <;> decide +kernel
  · obtain ⟨m, e, heq, hleast, hmost, hlow, hhigh, hvalue⟩ := Binary64.ofNat_eq hpos hn
    obtain ⟨shift, hfactor, hshift, hshift', hbase⟩ := o.factor_eq
    have hsum : e + (shift - 52) + (52 : Nat) = e + shift := by push_cast; omega
    have hnormal : IsNormal m (e + (shift - 52) + (52 : Nat)) := by
      rw [hsum]
      exact ⟨hleast, hmost, by rw [Binary64.minExponent]; omega,
        by rw [Binary64.maxExponent]; omega⟩
    have hproduct : (Binary64.ofNat n).mul o.factor = .finite false m (e + shift) := by
      rw [heq, hfactor, ← hsum]
      exact Binary64.ofScaled_eq hnormal
    rw [hproduct, durationOf,
      Binary64.roundTimes?_eq (Binary64.mul_two_pow hvalue hbase)]

theorem timeoutFor_eq {b : Budget} {n : Nat} (hb : b.baseTimeout = .ofSeconds n)
    (hn : n ≤ Word.maxU64) (method : String) :
    b.timeoutFor method = .clamp (nearest n * (Operation.ofMethod method).nanosPerBase) := by
  rw [timeoutFor, hb, secondsOf_eq hn, durationOf_mul_factor hn]

end Budget

/-! ## What decoded settings are bounded by -/

/-- The bounds of the numbers that a file can set, as far as they matter for times and sizes. -/
structure BackendSettings.Fits (s : BackendSettings) : Prop where
  timeoutSecs : s.timeoutSecs ≤ Word.maxU64
  diagnosticsTimeoutMs : s.diagnosticsTimeoutMs ≤ Word.maxU64
  settleMs : s.settleMs ≤ Word.maxU64
  retentionSecs : s.retentionSecs ≤ Word.maxU64
  maxFileSizeMb : s.maxFileSizeMb ≤ Word.maxU32

theorem BackendSettings.fits_default : Fits {} := by constructor <;> decide

open Json (Fields)

theorem BackendSettings.fits_of_decode {j : Json} {b : BackendSettings} (h : decode j = .ok b) :
    b.Fits := by
  obtain ⟨source, h₇, -⟩ := Fields.record_eq_ok h
  obtain ⟨_, autoRestart, h₆, -, rfl⟩ := Fields.run_seq h₇
  obtain ⟨_, maxFileSizeMb, h₅, hmaxFileSizeMb, rfl⟩ := Fields.run_seq h₆
  obtain ⟨_, retentionSecs, h₄, hretentionSecs, rfl⟩ := Fields.run_seq h₅
  obtain ⟨_, maxRestarts, h₃, -, rfl⟩ := Fields.run_seq h₄
  obtain ⟨_, silenceIsClean, h₂, -, rfl⟩ := Fields.run_seq h₃
  obtain ⟨_, settleMs, h₁, hsettleMs, rfl⟩ := Fields.run_seq h₂
  obtain ⟨_, diagnosticsTimeoutMs, h₀, hdiagnosticsTimeoutMs, rfl⟩ := Fields.run_seq h₁
  obtain ⟨timeoutSecs, htimeoutSecs, rfl⟩ := Fields.run_map h₀
  exact ⟨Fields.le_of_defaulted htimeoutSecs (by decide),
    Fields.le_of_defaulted hdiagnosticsTimeoutMs (by decide),
    Fields.le_of_defaulted hsettleMs (by decide),
    Fields.le_of_defaulted hretentionSecs (by decide),
    Fields.le_of_defaulted hmaxFileSizeMb (by decide)⟩

namespace Settings

variable {s : Settings}

theorem fits_of_decode {j : Json} (h : decode j = .ok s) : s.lsp.Fits := by
  obtain ⟨source, h₂, -⟩ := Fields.record_eq_ok h
  obtain ⟨_, backends, h₁, -, rfl⟩ := Fields.run_seq h₂
  obtain ⟨_, server, h₀, -, rfl⟩ := Fields.run_seq h₁
  obtain ⟨lsp, hlsp, rfl⟩ := Fields.run_map h₀
  rcases Fields.run_defaulted hlsp with ⟨-, rfl⟩ | ⟨k, -, hk⟩
  · exact BackendSettings.fits_default
  · exact BackendSettings.fits_of_decode hk

/-! ## Times without a bound -/

/-- How often a backend is started. -/
def attempts (s : Settings) : Nat :=
  if s.lsp.autoRestart then min (s.lsp.maxRestarts + 1) Word.maxU32 else 1

/-- The nanoseconds that a request of a kind may take. -/
def timeoutNanos (s : Settings) (o : Operation) : Nat :=
  Binary64.nearest s.lsp.timeoutSecs * o.nanosPerBase

/-- The nanoseconds of all pauses between starts. -/
def pauseNanos (s : Settings) : Nat :=
  ((List.range (s.attempts - 1)).map fun k =>
    ((Budget.ofSettings s).startBackoff.delayBefore (k + 1)).nanos).sum

/-- The nanoseconds that all starts may take. -/
def startNanos (s : Settings) : Nat :=
  (s.timeoutNanos .initialization + 7 * nanosPerSecond) * s.attempts + s.pauseNanos

/-- The nanoseconds that a check may take. -/
def checkNanos (s : Settings) : Nat :=
  (s.startNanos + (s.lsp.diagnosticsTimeoutMs * nanosPerMilli + s.timeoutNanos .request +
    200 * nanosPerMilli)) * s.attempts + 5 * nanosPerSecond

theorem attempts_pos (s : Settings) : 0 < s.attempts := by
  unfold attempts
  split_ifs
  · exact Nat.lt_min.mpr ⟨Nat.succ_pos _, by decide⟩
  · exact Nat.one_pos

theorem attempts_le (s : Settings) : s.attempts ≤ Word.maxU32 := by
  unfold attempts
  split_ifs
  · exact Nat.min_le_right _ _
  · decide

/-- There is one pause less than there are starts. -/
theorem pauseNanos_le (s : Settings) : s.pauseNanos ≤ (s.attempts - 1) * (5 * nanosPerSecond) := by
  have hle : ∀ n ∈ (List.range (s.attempts - 1)).map fun k =>
      ((Budget.ofSettings s).startBackoff.delayBefore (k + 1)).nanos, n ≤ 5 * nanosPerSecond := by
    intro n hn
    obtain ⟨k, -, rfl⟩ := List.mem_map.mp hn
    exact Backoff.delayBefore_le _ _
  rw [pauseNanos]
  simpa using List.sum_le_card_nsmul _ _ hle

theorem startBudget_eq (h : s.lsp.Fits) :
    (Budget.ofSettings s).startBudget = .clamp s.startNanos := by
  have htimeout := Budget.timeoutFor_eq (b := .ofSettings s) rfl h.timeoutSecs "initialize"
  have hallowance : Budget.stopAllowance.nanos = 7 * nanosPerSecond := by decide
  have hpauses : (Budget.ofSettings s).startBackoff.total = .clamp s.pauseNanos := by
    rw [Backoff.total_eq]
    have hattempts : (Budget.ofSettings s).startBackoff.attempts = s.attempts :=
      Nat.max_eq_right s.attempts_pos
    rw [hattempts, pauseNanos]
  have hstarts := Duration.clamp_mul (s.timeoutNanos .initialization + 7 * nanosPerSecond)
    s.attempts_pos
  calc (Budget.ofSettings s).startBudget
      = (((Duration.clamp (s.timeoutNanos .initialization)).add Budget.stopAllowance).mul
          s.attempts).add (.clamp s.pauseNanos) := by
        rw [Budget.startBudget, htimeout, hpauses]
        rfl
    _ = .clamp s.startNanos := by
        rw [Duration.clamp_add, hallowance, hstarts, Duration.clamp_add_clamp, startNanos]

theorem validationBudget_eq (h : s.lsp.Fits) :
    (Budget.ofSettings s).validationBudget = .clamp s.checkNanos := by
  have htimeout := Budget.timeoutFor_eq (b := .ofSettings s) rfl h.timeoutSecs
    "textDocument/didOpen"
  have hpause : Duration.ofMillis 200 = .clamp (200 * nanosPerMilli) := rfl
  have hmargin : Budget.answerMargin = .clamp (5 * nanosPerSecond) := rfl
  calc (Budget.ofSettings s).validationBudget
      = (((Duration.clamp s.startNanos).add
          (((Duration.clamp (s.lsp.diagnosticsTimeoutMs * nanosPerMilli)).add
            (.clamp (s.timeoutNanos .request))).add (.clamp (200 * nanosPerMilli)))).mul
          s.attempts).add (.clamp (5 * nanosPerSecond)) := by
        rw [← startBudget_eq h, ← hpause, ← hmargin, timeoutNanos]
        rw [Budget.validationBudget, htimeout]
        rfl
    _ = .clamp s.checkNanos := by
        rw [Duration.clamp_add_clamp, Duration.clamp_add_clamp, Duration.clamp_add_clamp,
          Duration.clamp_mul _ s.attempts_pos, Duration.clamp_add_clamp, checkNanos]

theorem maxFileSizeBytes_eq (s : Settings) :
    s.lsp.maxFileSizeBytes =
      if s.lsp.maxFileSizeMb = 0 then Word.maxU64 else s.lsp.maxFileSizeMb * 2 ^ 20 := by
  rw [BackendSettings.maxFileSizeBytes, Nat.mul_assoc, show 1024 * 1024 = 2 ^ 20 from rfl]

theorem maxFileSizeBytes_le (h : s.lsp.Fits) : s.lsp.maxFileSizeBytes ≤ Word.maxU64 := by
  have hsize := h.maxFileSizeMb
  rw [maxFileSizeBytes_eq]
  simp only [Word.maxU32, Word.maxU64] at *
  split_ifs <;> omega

/-- Minutes are counted in seconds, as far as a word can count them. -/
theorem idleTimeout_eq (s : Settings) (b : Budget) :
    (ServerPolicy.ofSettings s.server b).idleTimeout =
      if s.server.idleTimeoutMins = 0 then none
      else some ⟨min (s.server.idleTimeoutMins * 60) Word.maxU64 * nanosPerSecond⟩ := by
  rw [← Duration.ofSeconds_eq (Nat.min_le_right _ _), ServerPolicy.ofSettings]
  simp only [Nat.pos_iff_ne_zero, ne_eq, ite_not]

theorem idleTimeout_le {b : Budget} {d : Duration}
    (h : d ∈ (ServerPolicy.ofSettings s.server b).idleTimeout) : d ≤ .max := by
  rw [idleTimeout_eq, ← Duration.ofSeconds_eq (Nat.min_le_right _ _)] at h
  split_ifs at h
  · cases h
  · cases h
    exact Duration.clamp_le _

/-! ## The server -/

/-- There is a server just if its tasks can be counted. -/
theorem isSome_ofPolicy?_iff (s : Settings) :
    (Tool.Server.ofPolicy? (.ofSettings s.server (.ofSettings s))).isSome = true ↔
      s.server.maxConcurrent < 2 ^ 61 := by
  have hpermits : Tool.Server.maxPermits = 2 ^ 61 - 1 := by decide
  have hpolicy : (ServerPolicy.ofSettings s.server (.ofSettings s)).maxConcurrent =
      max 1 s.server.maxConcurrent := rfl
  rw [Tool.Server.ofPolicy?, hpolicy, hpermits]
  split_ifs with h
  · rw [Option.isSome_some, eq_self_iff_true, true_iff]
    omega
  · rw [Option.isSome_none]
    simp only [Bool.false_eq_true, false_iff]
    omega

/-- **What settings come to.** All settings that can be decoded give times and sizes without a
failure: what is set in seconds, milliseconds or megabytes is exact; the time of a request is the
base time, rounded to 53 bits, times its factor; the time of a start and of a check is the sum of
its parts; and whatever is longer than the longest duration is that one. The number of tasks is at
least one, but nothing holds it below the greatest one that can be counted: above that there is no
server. -/
theorem spans_of_decode {j : Json} (h : decode j = .ok s) :
    let b := Budget.ofSettings s
    let p := ServerPolicy.ofSettings s.server b
    b.baseTimeout = ⟨s.lsp.timeoutSecs * nanosPerSecond⟩ ∧
      b.diagnosticsTimeout = ⟨s.lsp.diagnosticsTimeoutMs * nanosPerMilli⟩ ∧
      b.settle = ⟨s.lsp.settleMs * nanosPerMilli⟩ ∧
      b.retention = ⟨s.lsp.retentionSecs * nanosPerSecond⟩ ∧
      b.maxFileSizeBytes =
        (if s.lsp.maxFileSizeMb = 0 then Word.maxU64 else s.lsp.maxFileSizeMb * 2 ^ 20) ∧
      b.maxFileSizeBytes ≤ Word.maxU64 ∧
      b.startAttempts = s.attempts ∧ 1 ≤ s.attempts ∧ s.attempts ≤ Word.maxU32 ∧
      s.pauseNanos ≤ (s.attempts - 1) * (5 * nanosPerSecond) ∧
      (∀ method, b.timeoutFor method = .clamp (s.timeoutNanos (.ofMethod method))) ∧
      b.startBudget = .clamp s.startNanos ∧
      b.validationBudget = .clamp s.checkNanos ∧
      p.requestTimeout = .clamp s.checkNanos ∧
      p.idleTimeout =
        (if s.server.idleTimeoutMins = 0 then none
        else some ⟨min (s.server.idleTimeoutMins * 60) Word.maxU64 * nanosPerSecond⟩) ∧
      (∀ d ∈ [b.baseTimeout, b.diagnosticsTimeout, b.settle, b.retention, b.restartBackoff,
        b.startBudget, b.validationBudget, p.reapInterval, p.requestTimeout] ++
          p.idleTimeout.toList, d ≤ .max) ∧
      1 ≤ p.maxConcurrent ∧
      ((Tool.Server.ofPolicy? p).isSome = true ↔ s.server.maxConcurrent < 2 ^ 61) := by
  intro b p
  have hfits := fits_of_decode h
  refine ⟨Duration.ofSeconds_eq hfits.timeoutSecs, Duration.ofMillis_eq hfits.diagnosticsTimeoutMs,
    Duration.ofMillis_eq hfits.settleMs, Duration.ofSeconds_eq hfits.retentionSecs,
    s.maxFileSizeBytes_eq, maxFileSizeBytes_le hfits, rfl, s.attempts_pos, s.attempts_le,
    s.pauseNanos_le, Budget.timeoutFor_eq rfl hfits.timeoutSecs, startBudget_eq hfits,
    validationBudget_eq hfits, validationBudget_eq hfits, s.idleTimeout_eq b,
    List.forall_mem_append.mpr ⟨?_, fun d hd => idleTimeout_le (Option.mem_toList.mp hd)⟩,
    Nat.le_max_left _ _, isSome_ofPolicy?_iff s⟩
  -- Each of them is a duration that was clamped, or a sum.
  simp only [List.forall_mem_cons]
  exact ⟨Duration.clamp_le _, Duration.clamp_le _, Duration.clamp_le _, Duration.clamp_le _,
    Duration.clamp_le _, Duration.nanos_le_max_add _ _, Duration.nanos_le_max_add _ _,
    Duration.clamp_le _, Duration.nanos_le_max_add _ _, List.forall_mem_nil _⟩

/-- The greatest times and one task too many: the start and the check are given the longest
duration, and there is no server. -/
theorem dies_above_the_limit :
    let j : Json := .obj [("lsp", .obj [("timeout_secs", .nat Word.maxU64)]),
      ("server", .obj [("max_concurrent", .nat (2 ^ 61)), ("idle_timeout_mins", .nat 0)])]
    let s : Settings := { lsp := { timeoutSecs := Word.maxU64 }, server := ⟨2 ^ 61, 0⟩ }
    decode j = .ok s ∧ (Budget.ofSettings s).timeoutFor "initialize" = .max ∧
      (Budget.ofSettings s).startBudget = .max ∧ (Budget.ofSettings s).validationBudget = .max ∧
      Tool.Server.ofPolicy? (.ofSettings s.server (.ofSettings s)) = none := by
  intro j s
  have hdecode : decode j = .ok s := rfl
  obtain ⟨-, -, -, -, -, -, -, -, -, -, htimeout, hstart, hcheck, -, -, -, -, hserver⟩ :=
    spans_of_decode hdecode
  refine ⟨hdecode, (htimeout _).trans (Duration.clamp_of_ge ?_),
    hstart.trans (Duration.clamp_of_ge ?_), hcheck.trans (Duration.clamp_of_ge ?_),
    Option.not_isSome_iff_eq_none.mp fun h => absurd (hserver.mp h) (by decide)⟩
  · decide +kernel
  · decide +kernel
  · decide +kernel

end Settings

end DiagnosticBroker
