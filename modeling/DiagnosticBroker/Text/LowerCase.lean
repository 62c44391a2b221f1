import DiagnosticBroker.Text.Ranges
import DiagnosticBroker.Text.CaseTables

/-!
# Lower case

The full lower-case form of a text: each character by its own mapping, and a capital sigma that
ends a word as the final small sigma.
-/

namespace DiagnosticBroker.Text

/-- The lower-case form of one character away from any context. -/
def lowerChar (c : Char) : List Char :=
  if c.toNat < 0x80 then [c.toLower]
  else if c.toNat = 0x130 then ['i', Char.ofNat 0x307]
  else
    match lowerRuns.find? fun r =>
        r.first ≤ c.toNat && c.toNat ≤ r.last && (c.toNat - r.first) % r.step = 0 with
    | some r => [Char.ofNat (r.lower + (c.toNat - r.first))]
    | none => [c]

/-- Whether the nearest character that is not case-ignorable is a cased one. -/
def startsCased (cs : List Char) : Bool :=
  match cs.dropWhile (inRanges caseIgnorableRanges) with
  | [] => false
  | c :: _ => inRanges casedRanges c

/-- The lower-case form of `rest`, which follows the characters `before`, the nearest first. -/
def lowerAfter (before : List Char) : List Char → List Char
  | [] => []
  | c :: rest =>
    (if c = 'Σ' then
      [if startsCased before && !startsCased rest then 'ς' else 'σ']
    else lowerChar c) ++ lowerAfter (c :: before) rest

/-- The lower-case form of a text. -/
def lowercase (s : String) : String := String.ofList (lowerAfter [] s.toList)

/-- The lower-case form of a text in which only the letters of ASCII change. -/
def lowercaseAscii (s : String) : String := s.map Char.toLower

end DiagnosticBroker.Text
