import DiagnosticBroker.Text.Ranges
import DiagnosticBroker.Text.EscapedTable

/-!
# Quoted text

A text between double quotes, with a backslash before the quote and the backslash, short escapes
for the common controls, and the code point in braces for what would not show.
-/

namespace DiagnosticBroker.Text

/-- A code point as a hexadecimal numeral in braces. -/
def escapeByNumber (c : Char) : List Char :=
  ['\\', 'u', '\x7b'] ++ Nat.toDigits 16 c.toNat ++ ['\x7d']

/-- The spelling of one character between quotes. -/
def quoteChar (c : Char) : List Char :=
  if c = '"' then ['\\', '"']
  else if c = '\\' then ['\\', '\\']
  else if c = '\n' then ['\\', 'n']
  else if c = '\r' then ['\\', 'r']
  else if c = '\t' then ['\\', 't']
  else if c.toNat = 0 then ['\\', '0']
  else if inRanges escapedRanges c then escapeByNumber c
  else [c]

/-- A text between double quotes. -/
def quoted (s : String) : String := String.ofList ('"' :: s.toList.flatMap quoteChar ++ ['"'])

end DiagnosticBroker.Text
