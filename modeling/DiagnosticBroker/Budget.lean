import DiagnosticBroker.Backoff
import DiagnosticBroker.Settings.Basic

/-!
# Times and policies

The `Budget` is what the settings come to: how long each step may take, how often a backend is
started, and how long a whole check may take at most. All sums and products stay at the longest
duration.
-/

namespace DiagnosticBroker

/-- Kinds of requests that are given different times. -/
inductive Operation where
  | request
  | initialization
  | shutdown
deriving DecidableEq, Repr

namespace Operation

def ofMethod (method : String) : Operation :=
  if method = "initialize" then initialization
  else if method = "shutdown" then shutdown
  else request

def name : Operation → String
  | request => "Request"
  | initialization => "Initialization"
  | shutdown => "Shutdown"

/-- The factor to the base time: one, two or a half (`base_multiplier`). -/
def factor : Operation → Binary64
  | request => Binary64.ofNat 1
  | initialization => Binary64.ofNat 2
  | shutdown => Binary64.ofRatio false 1 2

end Operation

/-- Times and policies of the talk with backends. -/
structure Budget where
  baseTimeout : Duration
  diagnosticsTimeout : Duration
  settle : Duration
  silenceIsClean : Bool
  maxRestarts : Nat
  retention : Duration
  maxFileSizeBytes : Nat
  autoRestart : Bool
  restartBackoff : Duration
deriving DecidableEq, Repr

namespace Budget

/-- What the settings come to. -/
def ofSettings (s : Settings) : Budget where
  baseTimeout := .ofSeconds s.lsp.timeoutSecs
  diagnosticsTimeout := .ofMillis s.lsp.diagnosticsTimeoutMs
  settle := .ofMillis s.lsp.settleMs
  silenceIsClean := s.lsp.silenceIsClean
  maxRestarts := s.lsp.maxRestarts
  retention := .ofSeconds s.lsp.retentionSecs
  maxFileSizeBytes := s.lsp.maxFileSizeBytes
  autoRestart := s.lsp.autoRestart
  restartBackoff := .ofMillis 200

/-- A duration in seconds as a double: whole seconds and fraction are rounded, then their sum. -/
def secondsOf (d : Duration) : Binary64 :=
  (Binary64.ofNat d.seconds).addFinite
    ((Binary64.ofNat d.subsecond).divFinite (Binary64.ofNat Duration.nanosPerSecond))

/-- The duration of a number of seconds, to the nearest nanosecond; the longest duration if it is
longer than that. -/
def durationOf (x : Binary64) : Duration :=
  match x.roundTimes? Duration.nanosPerSecond with
  | some n => .clamp n
  | none => .max

/-- The time allowed for a request (`timeout_for`). -/
def timeoutFor (b : Budget) (method : String) : Duration :=
  durationOf ((secondsOf b.baseTimeout).mul (Operation.ofMethod method).factor)

/-- How often a backend is started that has not failed before (`start_attempts`). -/
def startAttempts (b : Budget) : Nat :=
  if b.autoRestart then min (b.maxRestarts + 1) Word.maxU32 else 1

/-- The attempts at a start and the pauses between them (`for_backend_start`). -/
def startBackoff (b : Budget) : Backoff :=
  { maxAttempts := b.startAttempts, initialDelay := b.restartBackoff }

/-- The time for stopping a backend after a failed start. -/
def stopAllowance : Duration := .ofSeconds 7

/-- The time between the last deadline of a backend and the answer to the agent. -/
def answerMargin : Duration := .ofSeconds 5

/-- The longest time that a start may take: every attempt runs into its deadline and is stopped
(`start_budget`). -/
def startBudget (b : Budget) : Duration :=
  (((b.timeoutFor "initialize").add stopAllowance).mul b.startAttempts).add b.startBackoff.total

/-- The longest time that a check may take, with all restarts in the middle of it
(`validation_budget`). -/
def validationBudget (b : Budget) : Duration :=
  let opening := b.timeoutFor "textDocument/didOpen"
  let session := (b.diagnosticsTimeout.add opening).add b.restartBackoff
  ((b.startBudget.add session).mul b.startAttempts).add answerMargin

end Budget

/-- How the tool server works. -/
structure ServerPolicy where
  maxConcurrent : Nat
  /-- The time after which unused backends are stopped, if they are. -/
  idleTimeout : Option Duration
  reapInterval : Duration
  requestTimeout : Duration
deriving DecidableEq, Repr

/-- What the settings come to for the tool server. -/
def ServerPolicy.ofSettings (s : ServerSettings) (b : Budget) : ServerPolicy where
  maxConcurrent := max 1 s.maxConcurrent
  idleTimeout :=
    if 0 < s.idleTimeoutMins then some (.ofSeconds (min (s.idleTimeoutMins * 60) Word.maxU64))
    else none
  reapInterval := .ofSeconds 60
  requestTimeout := b.validationBudget

end DiagnosticBroker
