import DiagnosticBroker.Json.Basic
import DiagnosticBroker.Binary64.Decimal
import DiagnosticBroker.Text.Quoted
import DiagnosticBroker.Word

/-!
# Decoding JSON into typed data

A decoder reads a document as a value of some type or says why it is none. A record is given by its
`Fields`; the document may be an object, in any order and with further members, or an array of the
fields in the order of their declaration. Members are looked at in the order of the document, so of
several faults the one further to the front is reported, and a missing field only after all others.

What there is of a text that breaks off can be decoded too: the fault is then `unreadable`, unless
there is another one before the place.
-/

namespace DiagnosticBroker.Json

/-! ## Errors -/

/-- What a decoder found where it expected something else. -/
inductive Found where
  | null
  | bool (value : Bool)
  | int (value : Int)
  | float (value : Binary64)
  | text (value : String)
  | sequence
  | map
deriving DecidableEq, Repr

/-- What a document is, as a decoder reports it. -/
def found : Json → Found
  | null => .null
  | bool b => .bool b
  | num (.int i) => .int i
  | num (.float x) => .float x
  | str s => .text s
  | arr _ => .sequence
  | obj _ => .map

/-- The wording of what was found. -/
def Found.describe : Found → String
  | .null => "null"
  | .bool b => s!"boolean `{b}`"
  | .int i => s!"integer `{i}`"
  | .float x => s!"floating point `{x.shortText}`"
  | .text s => "string " ++ Text.quoted s
  | .sequence => "sequence"
  | .map => "map"

/-- Why a document has not the expected shape. -/
inductive DecodeError where
  | missingField (name : String)
  | duplicateField (name : String)
  | invalidType (actual : Found) (expected : String)
  | invalidValue (actual : Found) (expected : String)
  | invalidLength (length : Nat) (expected : String)
  /-- An array has more items than the record has fields. -/
  | extraItems (length : Nat)
  | unknownVariant (name : String) (expected : List String)
  /-- Neither a string nor an object stands where a choice is named. -/
  | notAVariant (actual : Found)
  | noAlternative (type : String)
  | notOneOf (value : Nat) (choices : List Nat)
  /-- An object with neither an id nor a method is no message. -/
  | notAMessage
  /-- A numeral out of range, or the place where a text breaks off. -/
  | unreadable
deriving DecidableEq, Repr

/-- The wording of a list of choices: each between grave accents. -/
def choiceText (names : List String) : String :=
  ", ".intercalate (names.map fun n => s!"`{n}`")

/-- The wording of a decoding error. -/
def DecodeError.message : DecodeError → String
  | .missingField n => s!"missing field `{n}`"
  | .duplicateField n => s!"duplicate field `{n}`"
  | .invalidType a e => s!"invalid type: {a.describe}, expected {e}"
  | .invalidValue a e => s!"invalid value: {a.describe}, expected {e}"
  | .invalidLength n e => s!"invalid length {n}, expected {e}"
  | .extraItems n => s!"invalid length {n}, expected fewer elements in array"
  | .unknownVariant n e => s!"unknown variant `{n}`, expected one of {choiceText e}"
  | .notAVariant a => s!"invalid type: {a.describe}, expected string or map"
  | .noAlternative t => s!"data did not match any variant of untagged enum {t}"
  | .notOneOf v cs =>
    s!"invalid value: {v}, expected one of: " ++ ", ".intercalate (cs.map toString)
  | .notAMessage => "Invalid LSP message"
  | .unreadable => "not JSON"

/-- Whether a reader of text stumbles over the fault as over broken syntax: it stops where it is and
cannot say what stands there. -/
def DecodeError.stopsReader : DecodeError → Bool
  | .extraItems _ => true
  | .notAVariant _ => true
  | .invalidType (.float x) _ => !x.isFinite
  | .invalidValue .map _ => true
  | .unreadable => true
  | _ => false

/-! ## Decoders of single values -/

/-- A decoder of values of type `α`. -/
abbrev Decoder (α : Type) := Json → Except DecodeError α

namespace Decode

/-- Any value. -/
def value : Decoder Json := fun j => if j.inRange then .ok j.canonical else .error .unreadable

def string : Decoder String
  | str s => .ok s
  | j => .error (.invalidType j.found "a string")

def bool : Decoder Bool
  | .bool b => .ok b
  | j => .error (.invalidType j.found "a boolean")

/-- An integer between `low` and `high`; `type` names the range in errors. -/
def integer (low high : Int) (type : String) : Decoder Int
  | num (.int i) =>
    if low ≤ i && i ≤ high then .ok i else .error (.invalidValue (.int i) type)
  | j => .error (.invalidType j.found type)

/-- A natural number of at most `high`; `type` names the range in errors. -/
def natural (high : Nat) (type : String) : Decoder Nat
  | num (.int i) =>
    if 0 ≤ i && i ≤ high then .ok i.toNat else .error (.invalidValue (.int i) type)
  | j => .error (.invalidType j.found type)

def u8 : Decoder Nat := natural Word.maxU8 "u8"
def u32 : Decoder Nat := natural Word.maxU32 "u32"
def u64 : Decoder Nat := natural Word.maxU64 "u64"
def usize : Decoder Nat := natural Word.maxU64 "usize"
def i32 : Decoder Int := integer Word.minI32 Word.maxI32 "i32"
def i64 : Decoder Int := integer Word.minI64 Word.maxI64 "i64"

/-- A value or null for its absence. -/
def option {α : Type} (d : Decoder α) : Decoder (Option α)
  | null => .ok none
  | j => (d j).map some

/-- Decodes each item in turn. -/
def items {α : Type} (d : Decoder α) : List Json → Except DecodeError (List α)
  | [] => .ok []
  | j :: js =>
    match d j with
    | .error e => .error e
    | .ok a =>
      match items d js with
      | .error e => .error e
      | .ok as => .ok (a :: as)

def list {α : Type} (d : Decoder α) : Decoder (List α)
  | arr js => items d js
  | j => .error (.invalidType j.found "a sequence")

/-- One of several named choices: its name, or an object with the name as its only member and null
as the content. -/
def choice {α : Type} (choices : List (String × α)) : Decoder α
  | str s => pick s
  | obj [(s, j)] =>
    match pick s with
    | .error e => .error e
    | .ok a =>
      match j with
      | null => .ok a
      | j => .error (.invalidType j.found "unit")
  | obj _ => .error (.invalidValue .map "map with a single key")
  | j => .error (.notAVariant j.found)
where
  pick (s : String) : Except DecodeError α :=
    match choices.lookup s with
    | some a => .ok a
    | none => .error (.unknownVariant s (choices.map (·.1)))

end Decode

/-! ## Records -/

/-- Where the fields of a record are read from. -/
inductive Source where
  | members (members : List (String × Json))
  | items (items : List Json)

/-- A fault and its place: the index of the member or item, or their number for what is missing. -/
structure Fault where
  place : Nat
  error : DecodeError

/-- A decoder of consecutive fields of a record. `run` is given the record's name with its number of
fields, the index of the first field, and the source. -/
structure Fields (α : Type) where
  count : Nat
  run : String → Nat → Source → Except Fault α

namespace Fields

/-- Of two faults the one further to the front, the left one if they are at the same place. -/
def first (e f : Fault) : Fault := if f.place < e.place then f else e

protected def pure {α : Type} (a : α) : Fields α := ⟨0, fun _ _ _ => .ok a⟩

/-- Decodes the fields of both sides; if both fail, the fault further to the front is reported. -/
protected def seq {α β : Type} (f : Fields (α → β)) (x : Unit → Fields α) : Fields β where
  count := f.count + (x ()).count
  run name start source :=
    match f.run name start source, (x ()).run name (start + f.count) source with
    | .ok g, .ok a => .ok (g a)
    | .error e, .ok _ => .error e
    | .ok _, .error e => .error e
    | .error e, .error e' => .error (first e e')

instance : Applicative Fields where
  pure := Fields.pure
  seq := Fields.seq

/-- The members with a name, each with its index. -/
def occurrences (name : String) (members : List (String × Json)) : List (Json × Nat) :=
  (members.zipIdx.filter fun m => m.1.1 = name).map fun m => (m.1.2, m.2)

/-- One field. `absent` is its value if an object has no such member, `beyond` if an array is too
short. -/
def field {α : Type} (name : String) (d : Decoder α) (absent beyond : Option α) : Fields α where
  count := 1
  run record start source :=
    match source with
    | .members ms =>
      match occurrences name ms with
      | [] =>
        match absent with
        | some a => .ok a
        | none => .error ⟨ms.length, .missingField name⟩
      | (j, i) :: others =>
        match d j, others with
        | .error e, _ => .error ⟨i, e⟩
        | .ok a, [] => .ok a
        | .ok _, (_, k) :: _ => .error ⟨k, .duplicateField name⟩
    | .items js =>
      match js[start]?, beyond with
      | some j, _ => (d j).mapError fun e => ⟨start, e⟩
      | none, some a => .ok a
      | none, none => .error ⟨start, .invalidLength start record⟩

/-- A field that must be there. -/
def required {α : Type} (name : String) (d : Decoder α) : Fields α := field name d none none

/-- A field that an object may leave out. -/
def optional {α : Type} (name : String) (d : Decoder α) : Fields (Option α) :=
  field name (Decode.option d) (some none) none

/-- A field with a default for objects and arrays that leave it out. -/
def defaulted {α : Type} (name : String) (d : Decoder α) (default : α) : Fields α :=
  field name d (some default) (some default)

/-- The wording for a record with its number of fields. -/
def recordText (name : String) (count : Nat) : String :=
  s!"struct {name} with {count} element" ++ if count = 1 then "" else "s"

/-- Takes the mark of the place where an object breaks off for a fault of that place. -/
def breakOff {α : Type} (ms : List (String × Json)) (r : Except Fault α) : Except Fault α :=
  if ms.getLast?.any fun m => m.2.isUnreadable then
    match r with
    | .error e => .error (first e ⟨ms.length - 1, .unreadable⟩)
    | .ok _ => .error ⟨ms.length - 1, .unreadable⟩
  else r

/-- A decoder of the whole record. -/
def record {α : Type} (name : String) (fields : Fields α) : Decoder α
  | obj ms =>
    (breakOff ms (fields.run (recordText name fields.count) 0 (.members ms))).mapError (·.error)
  | arr js =>
    match fields.run (recordText name fields.count) 0 (.items js) with
    | .error e => .error e.error
    | .ok a => if js.length ≤ fields.count then .ok a else .error (.extraItems js.length)
  | j => .error (.invalidType j.found s!"struct {name}")

end Fields

end DiagnosticBroker.Json
