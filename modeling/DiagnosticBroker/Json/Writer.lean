import DiagnosticBroker.Json.Basic
import DiagnosticBroker.Binary64.Decimal

/-!
# Writing JSON

The compact form: no blanks, members in the order that the document holds. A string escapes the
quote, the backslash and the controls, and holds all else as it is.
-/

namespace DiagnosticBroker.Json

/-- The lower-case hexadecimal digit of a number below 16. -/
def hexDigit (n : Nat) : Char := Nat.digitChar n

/-- The spelling of a character inside a string. -/
def escapeChar (c : Char) : List Char :=
  if c = '"' then ['\\', '"']
  else if c = '\\' then ['\\', '\\']
  else if c.toNat = 8 then ['\\', 'b']
  else if c.toNat = 12 then ['\\', 'f']
  else if c = '\n' then ['\\', 'n']
  else if c = '\r' then ['\\', 'r']
  else if c = '\t' then ['\\', 't']
  else if c.toNat < 32 then ['\\', 'u', '0', '0', hexDigit (c.toNat / 16), hexDigit (c.toNat % 16)]
  else [c]

/-- A string between quotes. -/
def writeString (s : String) : List Char := '"' :: (s.toList.flatMap escapeChar ++ ['"'])

/-- The numeral of a number. -/
def Number.write : Number → List Char
  | .int i => (toString i).toList
  | .float x => x.shortText.toList

mutual

/-- The compact text of a document. -/
def write : Json → List Char
  | null => ['n', 'u', 'l', 'l']
  | bool true => ['t', 'r', 'u', 'e']
  | bool false => ['f', 'a', 'l', 's', 'e']
  | num n => n.write
  | str s => writeString s
  | arr [] => ['[', ']']
  | arr (j :: js) => '[' :: (j.write ++ writeItems js)
  | obj [] => ['\x7b', '\x7d']
  | obj ((name, j) :: rest) => '\x7b' :: (writeString name ++ ':' :: (j.write ++ writeMembers rest))

/-- The items after the first, each after a comma, and the closing bracket. -/
def writeItems : List Json → List Char
  | [] => [']']
  | j :: js => ',' :: (j.write ++ writeItems js)

/-- The members after the first, each after a comma, and the closing brace. -/
def writeMembers : List (String × Json) → List Char
  | [] => ['\x7d']
  | (name, j) :: rest => ',' :: (writeString name ++ ':' :: (j.write ++ writeMembers rest))

end

/-- The compact text of a document. -/
def text (j : Json) : String := String.ofList j.write

end DiagnosticBroker.Json
