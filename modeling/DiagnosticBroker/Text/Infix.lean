/-!
# Texts within texts
-/

namespace DiagnosticBroker.Text

/-- Whether `part` stands somewhere in the list. -/
def isInfix (part : List Char) : List Char → Bool
  | [] => part.isEmpty
  | c :: cs => part.isPrefixOf (c :: cs) || isInfix part cs

theorem isInfix_iff {part cs : List Char} : isInfix part cs = true ↔ part <:+: cs := by
  induction cs with
  | nil => simp [isInfix]
  | cons c cs ih => simp [isInfix, ih, List.infix_cons_iff]

/-- Whether a text holds another one. -/
def contains (text part : String) : Bool := isInfix part.toList text.toList

end DiagnosticBroker.Text
