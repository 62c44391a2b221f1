import DiagnosticBroker.Duration
import DiagnosticBroker.Json.Basic

/-!
# Lenient reading of members

Members of hand-written descriptions, such as the scripts of simulated backends: a member of another
shape counts as absent, and an absent one has a default. Amounts of time say their unit in their
name, and bytes are written as text, as digits, or as a text that is repeated.
-/

namespace DiagnosticBroker.Json.Lenient

/-! ## Plain members -/

def str? (j : Json) (name : String) : Option String := (j.get? name).bind Json.str?

/-- The text of a member, or an empty one. -/
def str (j : Json) (name : String) : String := (str? j name).getD ""

def intOf? : Json → Option Int
  | .num (.int i) => some i
  | _ => none

def int? (j : Json) (name : String) : Option Int := (j.get? name).bind intOf?

def natOf? (j : Json) : Option Nat :=
  match intOf? j with
  | some i => if 0 ≤ i then some i.toNat else none
  | none => none

def nat? (j : Json) (name : String) : Option Nat := (j.get? name).bind natOf?

/-- The number of a member, or a default. -/
def nat (j : Json) (name : String) (default : Nat := 0) : Nat := (nat? j name).getD default

/-- Whether a member is true. -/
def flag (j : Json) (name : String) : Bool :=
  match j.get? name with
  | some (.bool b) => b
  | _ => false

/-- The items of a member, or none. -/
def list (j : Json) (name : String) : List Json := ((j.get? name).bind Json.items?).getD []

/-- The items of a member that are texts. -/
def strings (j : Json) (name : String) : List String := (list j name).filterMap Json.str?

/-- The members of a member, or none. -/
def members (j : Json) (name : String) : List (String × Json) :=
  match j.get? name with
  | some (.obj ms) => ms
  | _ => []

/-- The value of a member, or null. -/
def value (j : Json) (name : String) : Json := (j.get? name).getD .null

/-! ## Time -/

/-- The duration of the member with a name that ends in a unit: microseconds, or else milliseconds.
Any text stands for the longest duration. -/
def duration? (j : Json) (name : String) : Option Duration :=
  match nat? j (name ++ "_us"), j.get? (name ++ "_ms") with
  | some us, _ => some (.ofMicros us)
  | none, some (.str _) => some .max
  | none, some v => (natOf? v).map .ofMillis
  | none, none => none

/-- The duration of a member, or none at all. -/
def duration (j : Json) (name : String) : Duration := (duration? j name).getD .zero

/-! ## Bytes -/

/-- The value of a hexadecimal digit. -/
def digitValue (c : Char) : UInt8 :=
  if c.isDigit then (c.toNat - 48).toUInt8 else ((c.toLower).toNat - 87).toUInt8

/-- The bytes that pairs of hexadecimal digits spell. -/
def bytesOfDigits : List Char → List UInt8
  | a :: b :: rest => (digitValue a * 16 + digitValue b) :: bytesOfDigits rest
  | _ => []

/-- Bytes that are repeated. -/
def repeated (bytes : ByteArray) (n : Nat) : ByteArray :=
  n.fold (fun _ _ acc => acc ++ bytes) ByteArray.empty

/-- The bytes that a description gives: digits, or a text that is repeated and perhaps followed by
another, or a text. -/
def content? (j : Json) : Option ByteArray :=
  match str? j "hex", str? j "repeat", str? j "text" with
  | some h, _, _ => some ⟨(bytesOfDigits h.toList).toArray⟩
  | none, some r, t => some (repeated r.toUTF8 (nat j "times") ++ (t.getD "").toUTF8)
  | none, none, some t => some t.toUTF8
  | none, none, none => none

/-- The bytes that a description gives, or none. -/
def content (j : Json) : ByteArray := (content? j).getD ByteArray.empty

end DiagnosticBroker.Json.Lenient
