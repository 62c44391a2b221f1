import DiagnosticBroker.Word

/-!
# Durations

A span of time in whole nanoseconds, at most 2^64 seconds less one nanosecond; arithmetic stays at
that bound. A duration is written in the largest unit of which it holds at least one, with the
fraction that is needed.

Results:
* `nanos_le_max_add`: sums stay within the bound.
-/

namespace DiagnosticBroker

/-- A span of time. -/
structure Duration where
  nanos : Nat
deriving DecidableEq, Repr, Inhabited

namespace Duration

def nanosPerSecond : Nat := 1000000000

def nanosPerMilli : Nat := 1000000

/-- The longest duration. -/
def max : Duration := ⟨(Word.maxU64 + 1) * nanosPerSecond - 1⟩

def zero : Duration := ⟨0⟩

/-- The duration, or the longest one if it is longer. -/
def clamp (nanos : Nat) : Duration := ⟨min nanos max.nanos⟩

def ofSeconds (n : Nat) : Duration := clamp (n * nanosPerSecond)

def ofMillis (n : Nat) : Duration := clamp (n * nanosPerMilli)

def ofMicros (n : Nat) : Duration := clamp (n * 1000)

/-- The sum, at most the longest duration. -/
def add (a b : Duration) : Duration := clamp (a.nanos + b.nanos)

/-- The multiple, at most the longest duration. -/
def mul (a : Duration) (n : Nat) : Duration := clamp (a.nanos * n)

instance : Add Duration := ⟨add⟩

instance : LE Duration := ⟨fun a b => a.nanos ≤ b.nanos⟩

instance : LT Duration := ⟨fun a b => a.nanos < b.nanos⟩

instance (a b : Duration) : Decidable (a ≤ b) := inferInstanceAs (Decidable (a.nanos ≤ b.nanos))

instance (a b : Duration) : Decidable (a < b) := inferInstanceAs (Decidable (a.nanos < b.nanos))

instance : Min Duration := ⟨fun a b => if a ≤ b then a else b⟩

theorem nanos_le_max_add (a b : Duration) : (a.add b).nanos ≤ max.nanos := Nat.min_le_right _ _

/-- The whole seconds. -/
def seconds (d : Duration) : Nat := d.nanos / nanosPerSecond

/-- The nanoseconds beyond the whole seconds. -/
def subsecond (d : Duration) : Nat := d.nanos % nanosPerSecond

/-- The whole milliseconds. -/
def millis (d : Duration) : Nat := d.nanos / nanosPerMilli

/-- The milliseconds, the last one begun counted in full. -/
def millisUp (d : Duration) : Nat := (d.nanos + (nanosPerMilli - 1)) / nanosPerMilli

/-- A fraction `part / 10 ^ places` without the zeros at its end, after a point. -/
def fractionText (part places : Nat) : String :=
  if part = 0 then ""
  else
    let digits := Nat.toDigits 10 part
    let padded := List.replicate (places - digits.length) '0' ++ digits
    String.ofList ('.' :: (padded.reverse.dropWhile (· = '0')).reverse)

/-- The text of a duration, such as `30s`, `1.5ms`, `250.001ms` or `0ns`. -/
def text (d : Duration) : String :=
  let inUnit (unit places : Nat) (name : String) : String :=
    toString (d.nanos / unit) ++ fractionText (d.nanos % unit) places ++ name
  if nanosPerSecond ≤ d.nanos then inUnit nanosPerSecond 9 "s"
  else if nanosPerMilli ≤ d.nanos then inUnit nanosPerMilli 6 "ms"
  else if 1000 ≤ d.nanos then inUnit 1000 3 "µs"
  else inUnit 1 0 "ns"

example : (ofMicros 250001).text = "250.001ms" := by decide

end Duration

end DiagnosticBroker
