import DiagnosticBroker.Text.Utf8

/-!
# File addresses

A path is announced to backends as a `file://` address in which every character but letters, digits
and `/ . - _ ~` is written as the percent escapes of its bytes. An address that comes back may
escape other characters, so it is read and written again before it is compared
(`Uri.normalize`).
-/

namespace DiagnosticBroker.Uri

/-- What an address of a file begins with. -/
def scheme : String := "file://"

/-! ## Writing -/

/-- Whether a character stands for itself in an address. -/
def isPlain (c : Char) : Bool :=
  c.isAlphanum || c = '/' || c = '.' || c = '-' || c = '_' || c = '~'

/-- The upper-case hexadecimal digit of a number below 16. -/
def hexDigit (n : Nat) : Char := (Nat.digitChar n).toUpper

/-- The escape of a byte. -/
def escapeByte (b : UInt8) : List Char := ['%', hexDigit (b.toNat / 16), hexDigit (b.toNat % 16)]

/-- The spelling of a character in an address. -/
def encodeChar (c : Char) : List Char :=
  if isPlain c then [c] else (String.utf8EncodeChar c).flatMap escapeByte

/-- The spelling of a path in an address. -/
def encode (path : List Char) : List Char := path.flatMap encodeChar

/-! ## Reading -/

/-- The value of a hexadecimal digit of either case, given as a byte (`hex_value`). -/
def hexValue? (b : UInt8) : Option UInt8 :=
  if 0x30 ≤ b && b ≤ 0x39 then some (b - 0x30)
  else if 0x41 ≤ b && b ≤ 0x46 then some (b - 0x37)
  else if 0x61 ≤ b && b ≤ 0x66 then some (b - 0x57)
  else none

/-- The bytes that escaped bytes stand for. A percent sign takes the two bytes after it along even
if they are no hexadecimal digits; then it stands for itself and they are dropped. -/
def decodeBytes : List UInt8 → List UInt8
  | 0x25 :: h :: l :: rest =>
    match hexValue? h, hexValue? l with
    | some x, some y => (x * 16 + y) :: decodeBytes rest
    | _, _ => 0x25 :: decodeBytes rest
  | 0x25 :: _ => [0x25]
  | b :: rest => b :: decodeBytes rest
  | [] => []

/-- The path that an escaped path stands for; bytes that are not UTF-8 become U+FFFD. -/
def decode (cs : List Char) : List Char := Utf8.lossy (decodeBytes (Utf8.encode cs))

/-! ## Addresses and paths -/

/-- A path, taken from the directory `cwd` unless it begins at the root. -/
def absolute (cwd path : String) : String :=
  if path.startsWith "/" then path
  else if cwd.endsWith "/" then cwd ++ path
  else cwd ++ "/" ++ path

/-- The address of a path (`path_to_uri`). -/
def ofPath (cwd path : String) : String :=
  scheme ++ String.ofList (encode (absolute cwd path).toList)

/-- The path of an address; a text that is no address of a file is taken as a path
(`uri_to_path`). -/
def toPath (uri : String) : String :=
  if uri.startsWith scheme then String.ofList (decode (uri.toList.drop scheme.length)) else uri

/-- The address as this program would have written it; other addresses stay as they are
(`normalize_uri`). -/
def normalize (cwd uri : String) : String :=
  if uri.startsWith scheme then ofPath cwd (toPath uri) else uri

end DiagnosticBroker.Uri
