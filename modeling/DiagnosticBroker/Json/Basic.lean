import DiagnosticBroker.Binary64.Basic

/-!
# JSON values

A `Json` is a document as it was written: the members of an object keep their order and may repeat
a name. `Json.canonical` is the value that such a document stands for: members sorted by name, of
members with one name the last.

Numbers are integers of 64 bits, signed or unsigned, and doubles for all others. Two doubles are no
JSON numbers and mark what a reader could not read: an infinity a numeral out of range, and NaN the
place where a text breaks off.
-/

namespace DiagnosticBroker

/-- A JSON number. -/
inductive Json.Number where
  /-- An integer between `-2 ^ 63` and `2 ^ 64 - 1`. -/
  | int (value : Int)
  /-- Any other number. -/
  | float (value : Binary64)
deriving DecidableEq, Repr

/-- A JSON document. -/
inductive Json where
  | null
  | bool (value : Bool)
  | num (value : Json.Number)
  | str (value : String)
  | arr (items : List Json)
  | obj (members : List (String × Json))
deriving Repr

namespace Json

instance : Inhabited Json := ⟨null⟩

/-- A natural number as a value. -/
def nat (n : Nat) : Json := num (.int n)

/-- An integer as a value. -/
def int (i : Int) : Json := num (.int i)

/-- The member of an object with a name. -/
def get? (name : String) : Json → Option Json
  | obj members => members.lookup name
  | _ => none

/-- The text of a string value. -/
def str? : Json → Option String
  | str s => some s
  | _ => none

/-- The items of an array. -/
def items? : Json → Option (List Json)
  | arr items => some items
  | _ => none

def isNull : Json → Bool
  | null => true
  | _ => false

/-- The mark of the place where a text breaks off. -/
def unreadable : Json := num (.float .nan)

def isUnreadable : Json → Bool
  | num (.float .nan) => true
  | _ => false

/-! ## Canonical values -/

/-- Puts a member into members sorted by name, in place of one with the same name. -/
def insertMember (name : String) (value : Json) : List (String × Json) → List (String × Json)
  | [] => [(name, value)]
  | (n, v) :: rest =>
    if name < n then (name, value) :: (n, v) :: rest
    else if name = n then (name, value) :: rest
    else (n, v) :: insertMember name value rest

mutual

/-- The value that a document stands for: members sorted by name, of one name the last. -/
def canonical : Json → Json
  | arr items => arr (canonicalItems items)
  | obj members => obj (canonicalMembers members [])
  | j => j

/-- The canonical form of each item. -/
def canonicalItems : List Json → List Json
  | [] => []
  | j :: js => j.canonical :: canonicalItems js

/-- Puts the canonical forms of members into sorted members. -/
def canonicalMembers : List (String × Json) → List (String × Json) → List (String × Json)
  | [], sorted => sorted
  | (name, j) :: rest, sorted => canonicalMembers rest (insertMember name j.canonical sorted)

end

mutual

/-- Whether the document could be read in full: every number in it is one, and in range. -/
def inRange : Json → Bool
  | num (.float x) => x.isFinite
  | arr items => inRangeItems items
  | obj members => inRangeMembers members
  | _ => true

def inRangeItems : List Json → Bool
  | [] => true
  | j :: js => j.inRange && inRangeItems js

def inRangeMembers : List (String × Json) → Bool
  | [] => true
  | (_, j) :: rest => j.inRange && inRangeMembers rest

end

/-- An object of the members that are present. -/
def objOf (members : List (Option (String × Json))) : Json := obj (members.filterMap id)

end Json

end DiagnosticBroker
