import DiagnosticBroker.Json.Basic
import DiagnosticBroker.Binary64.Decimal
import DiagnosticBroker.Word

/-!
# Reading JSON

`Json.readDocument?` reads a text as a document; `Json.read?` also refuses numerals out of range
and gives the canonical value. Containers may be nested 127 deep. Of a text that breaks off,
`Json.readFront` gives what was read.

A numeral without fraction and exponent that fits 64 bits is an integer, except `-0`. Any other is
a double made from a significand of 64 bits: digits of the whole part that no longer fit count as
powers of ten, digits of the fraction that no longer fit are left out.
-/

namespace DiagnosticBroker.Json

/-- How deep containers may be nested. -/
def maxDepth : Nat := 127

/-- The blanks that JSON allows between tokens. -/
def isSpace (c : Char) : Bool := c = ' ' || c = '\t' || c = '\n' || c = '\r'

def skipSpace (cs : List Char) : List Char := cs.dropWhile isSpace

/-! ## Strings -/

/-- The value of a hexadecimal digit of either case. -/
def hexValue? (c : Char) : Option Nat :=
  if '0' ≤ c && c ≤ '9' then some (c.toNat - 48)
  else if 'a' ≤ c && c ≤ 'f' then some (c.toNat - 87)
  else if 'A' ≤ c && c ≤ 'F' then some (c.toNat - 55)
  else none

/-- The number that four hexadecimal digits spell. -/
def hex4? (a b c d : Char) : Option Nat := do
  return 4096 * (← hexValue? a) + 256 * (← hexValue? b) + 16 * (← hexValue? c) + (← hexValue? d)

/-- The character of an escape of one letter. -/
def shortEscape? : Char → Option Char
  | '"' => some '"'
  | '\\' => some '\\'
  | '/' => some '/'
  | 'b' => some (Char.ofNat 8)
  | 'f' => some (Char.ofNat 12)
  | 'n' => some '\n'
  | 'r' => some '\r'
  | 't' => some '\t'
  | _ => none

/-- Reads a string after its opening quote; `acc` holds the characters so far, the last one first.
A surrogate counts only as the first half of a pair. -/
def readString (acc : List Char) : List Char → Option (String × List Char)
  | '"' :: rest => some (String.ofList acc.reverse, rest)
  | '\\' :: 'u' :: a :: b :: c :: d :: rest =>
    match hex4? a b c d with
    | none => none
    | some n =>
      if n < 0xD800 || 0xDFFF < n then readString (Char.ofNat n :: acc) rest
      else if 0xDC00 ≤ n then none
      else
        match rest with
        | '\\' :: 'u' :: a' :: b' :: c' :: d' :: rest =>
          match hex4? a' b' c' d' with
          | none => none
          | some m =>
            if 0xDC00 ≤ m && m ≤ 0xDFFF then
              readString (Char.ofNat (0x10000 + (n - 0xD800) * 1024 + (m - 0xDC00)) :: acc) rest
            else none
        | _ => none
  | '\\' :: e :: rest =>
    match shortEscape? e with
    | some c => readString (c :: acc) rest
    | none => none
  | c :: rest => if c.toNat < 32 || c = '\\' then none else readString (c :: acc) rest
  | [] => none

/-! ## Numbers -/

def digit? (c : Char) : Option Nat :=
  if '0' ≤ c && c ≤ '9' then some (c.toNat - 48) else none

/-- A significand of 64 bits, the power of ten that it is multiplied by, and what follows. -/
structure Scan where
  significand : Nat
  power : Int
  rest : List Char

/-- Takes digits of the whole part while they fit, starting from `n`; the flag tells whether all
fitted. -/
def scanWhole (n : Nat) : List Char → Nat × List Char × Bool
  | [] => (n, [], true)
  | c :: cs =>
    match digit? c with
    | none => (n, c :: cs, true)
    | some d => if 10 * n + d ≤ Word.maxU64 then scanWhole (10 * n + d) cs else (n, c :: cs, false)

/-- Takes digits of the fraction while they fit. -/
def scanFraction (n : Nat) (power : Int) : List Char → Scan
  | [] => ⟨n, power, []⟩
  | c :: cs =>
    match digit? c with
    | none => ⟨n, power, c :: cs⟩
    | some d =>
      if 10 * n + d ≤ Word.maxU64 then scanFraction (10 * n + d) (power - 1) cs
      else ⟨n, power, c :: cs⟩

def isDigit (c : Char) : Bool := (digit? c).isSome

/-- The value of a list of digits. -/
def digitsValue (cs : List Char) : Nat := cs.foldl (fun n c => 10 * n + (digit? c).getD 0) 0

/-- The number with a significand and a power of ten, an infinity if it is out of range. -/
def scaled (negative : Bool) (significand : Nat) (power : Int) : Number :=
  .float ((Binary64.ofDecimal? negative significand power).getD (.infinite negative))

/-- Reads an exponent, if there is one, and makes the double. Exponents of more than 31 bits count
as such: zero stays zero, a negative power makes zero, a positive one is out of range. -/
def finishFloat (negative : Bool) (s : Scan) : Option (Number × List Char) :=
  match s.rest with
  | c :: rest =>
    if c = 'e' || c = 'E' then
      let (down, rest) :=
        match rest with
        | '+' :: r => (false, r)
        | '-' :: r => (true, r)
        | r => (false, r)
      let digits := rest.takeWhile isDigit
      if digits.isEmpty then none
      else
        let n := digitsValue digits
        let rest := rest.dropWhile isDigit
        if Word.maxI32 < (n : Int) then
          if s.significand ≠ 0 && !down then some (.float (.infinite negative), rest)
          else some (.float (Binary64.zero negative), rest)
        else
          let power := if down then max (s.power - n) Word.minI32 else min (s.power + n) Word.maxI32
          some (scaled negative s.significand power, rest)
    else some (scaled negative s.significand s.power, s.rest)
  | [] => some (scaled negative s.significand s.power, [])

/-- The number of a numeral without fraction and exponent. -/
def wholeNumber (negative : Bool) (n : Nat) : Number :=
  if negative then
    if n = 0 || (n : Int) > -Word.minI64 then .float (Binary64.ofNat n).neg else .int (-(n : Int))
  else .int n

/-- Reads the part of a numeral after its sign. -/
def readUnsigned (negative : Bool) (cs : List Char) : Option (Number × List Char) :=
  match cs with
  | '0' :: c :: rest => if isDigit c then none else afterWhole 0 (c :: rest) true
  | c :: _ => if isDigit c then
      let (n, rest, fits) := scanWhole 0 cs
      afterWhole n rest fits
    else none
  | [] => none
where
  /-- Goes on after the digits of the whole part that fitted. -/
  afterWhole (n : Nat) (rest : List Char) (fits : Bool) : Option (Number × List Char) :=
    let more := if fits then [] else rest.takeWhile isDigit
    let rest := if fits then rest else rest.dropWhile isDigit
    match rest with
    | '.' :: r =>
      match r with
      | c :: _ =>
        if isDigit c then
          let s := scanFraction n more.length r
          finishFloat negative { s with rest := s.rest.dropWhile isDigit }
        else none
      | [] => none
    | c :: r =>
      if c = 'e' || c = 'E' || !fits then finishFloat negative ⟨n, more.length, c :: r⟩
      else some (wholeNumber negative n, c :: r)
    | [] =>
      if fits then some (wholeNumber negative n, []) else finishFloat negative ⟨n, more.length, []⟩

/-- Reads a numeral. -/
def readNumber : List Char → Option (Number × List Char)
  | '-' :: cs => readUnsigned true cs
  | cs => readUnsigned false cs

/-! ## Documents -/

/-- What reading comes to: a document and the text after it, or, where the text breaks off, what was
read of it. In the latter an unreadable value stands for the place; an object that has more to it
than the broken member ends with a nameless unreadable one. -/
abbrev Reading := Except Json (Json × List Char)

mutual

/-- Reads one document from the front of a text. `depth` bounds the nesting of containers and
`fuel` the number of steps; the length of the text and one more is enough. -/
def readValue (depth : Nat) : Nat → List Char → Reading
  | 0, _ => .error unreadable
  | fuel + 1, cs =>
    match skipSpace cs with
    | 'n' :: 'u' :: 'l' :: 'l' :: rest => .ok (null, rest)
    | 't' :: 'r' :: 'u' :: 'e' :: rest => .ok (bool true, rest)
    | 'f' :: 'a' :: 'l' :: 's' :: 'e' :: rest => .ok (bool false, rest)
    | '"' :: rest =>
      match readString [] rest with
      | some (s, rest) => .ok (str s, rest)
      | none => .error unreadable
    | '[' :: rest =>
      match depth with
      | 0 => .error unreadable
      | depth + 1 =>
        match skipSpace rest with
        | ']' :: rest => .ok (arr [], rest)
        | rest => readItems depth fuel [] rest
    | '\x7b' :: rest =>
      match depth with
      | 0 => .error unreadable
      | depth + 1 =>
        match skipSpace rest with
        | '\x7d' :: rest => .ok (obj [], rest)
        | rest => readMembers depth fuel [] rest
    | cs =>
      match readNumber cs with
      | some (n, rest) => .ok (num n, rest)
      | none => .error unreadable

/-- Reads the items of an array up to its closing bracket. -/
def readItems (depth : Nat) : Nat → List Json → List Char → Reading
  | 0, acc, _ => .error (arr (unreadable :: acc).reverse)
  | fuel + 1, acc, cs =>
    match readValue depth fuel cs with
    | .error j => .error (arr (j :: acc).reverse)
    | .ok (j, rest) =>
      match skipSpace rest with
      | ',' :: rest => readItems depth fuel (j :: acc) rest
      | ']' :: rest => .ok (arr (j :: acc).reverse, rest)
      | _ => .error (arr (unreadable :: j :: acc).reverse)

/-- Reads the members of an object up to its closing brace. -/
def readMembers (depth : Nat) : Nat → List (String × Json) → List Char → Reading
  | 0, acc, _ => .error (obj (("", unreadable) :: acc).reverse)
  | fuel + 1, acc, cs =>
    match skipSpace cs with
    | '"' :: rest =>
      match readString [] rest with
      | none => .error (obj (("", unreadable) :: acc).reverse)
      | some (name, rest) =>
        match skipSpace rest with
        | ':' :: rest =>
          match readValue depth fuel rest with
          | .error j => .error (obj (("", unreadable) :: (name, j) :: acc).reverse)
          | .ok (j, rest) =>
            match skipSpace rest with
            | ',' :: rest => readMembers depth fuel ((name, j) :: acc) rest
            | '\x7d' :: rest => .ok (obj ((name, j) :: acc).reverse, rest)
            | _ => .error (obj (("", unreadable) :: (name, j) :: acc).reverse)
        | _ => .error (obj ((name, unreadable) :: acc).reverse)
    | _ => .error (obj (("", unreadable) :: acc).reverse)

end

/-- Reads a text as one document, with nothing but blanks around it. -/
def readDocument? (cs : List Char) : Option Json :=
  match readValue maxDepth (cs.length + 1) cs with
  | .ok (j, rest) => if (skipSpace rest).isEmpty then some j else none
  | .error _ => none

/-- Reads the document at the front of a text, or what there is of it. -/
def readFront (cs : List Char) : Json :=
  match readValue maxDepth (cs.length + 1) cs with
  | .ok (j, _) => j
  | .error j => j

/-- Reads a text as a value. -/
def read? (cs : List Char) : Option Json :=
  match readDocument? cs with
  | some j => if j.inRange then some j.canonical else none
  | none => none

end DiagnosticBroker.Json
