import DiagnosticBroker.Json.Reader

/-!
# Simple values of the settings format

Keys, strings, numbers, truth values and dates of TOML documents, read from the front of a text. A
reader returns what it read and the rest of the text, or nothing if the text does not begin so.

Numbers with a fraction or an exponent and dates are never used as settings, so of these only the
form is checked: they become the number zero and an object without known members.
-/

namespace DiagnosticBroker.Toml

/-- Reads something from the front of a text. -/
abbrev Reader (α : Type) := List Char → Option (α × List Char)

/-! ## Blanks, line ends, comments -/

def isSpace (c : Char) : Bool := c = ' ' || c = '\t'

def skipSpace (cs : List Char) : List Char := cs.dropWhile isSpace

/-- Whether a character may stand in a comment or a string: no control but the tab. -/
def isText (c : Char) : Bool := c = '\t' || (0x20 ≤ c.toNat && c.toNat ≠ 0x7F)

/-- The text after a line end. -/
def newline? : List Char → Option (List Char)
  | '\n' :: rest => some rest
  | '\r' :: '\n' :: rest => some rest
  | _ => none

/-- Leaves out a comment up to its line end. -/
def skipComment : List Char → List Char
  | '#' :: rest => rest.dropWhile isText
  | cs => cs

/-- Leaves out the blanks, the comment and the line end after a statement. -/
def endLine? (cs : List Char) : Option (List Char) :=
  match skipComment (skipSpace cs) with
  | [] => some []
  | cs => newline? cs

/-- Leaves out blanks, comments and line ends; each takes one step of `fuel`. -/
def skipLines : Nat → List Char → List Char
  | 0, cs => cs
  | fuel + 1, cs =>
    match skipComment (skipSpace cs) with
    | '\n' :: rest => skipLines fuel rest
    | '\r' :: '\n' :: rest => skipLines fuel rest
    | cs => cs

/-! ## Strings -/

/-- The number that hexadecimal digits spell. -/
def hexNumber? (cs : List Char) : Option Nat :=
  cs.foldl (fun n? c => do return 16 * (← n?) + (← Json.hexValue? c)) (some 0)

/-- The character with a code point, unless it is a surrogate or too large. -/
def scalar? (n : Nat) : Option Char :=
  if h : n.isValidChar then some (Char.ofNatAux n h) else none

/-- Reads the escape of a character by its number, of `width` digits. -/
def numberEscape? (width : Nat) (cs : List Char) : Option (Char × List Char) :=
  if cs.length < width then none
  else do return (← scalar? (← hexNumber? (cs.take width)), cs.drop width)

/-- Reads an escape after its backslash. -/
def escape? : Reader Char
  | 'b' :: rest => some (Char.ofNat 8, rest)
  | 't' :: rest => some ('\t', rest)
  | 'n' :: rest => some ('\n', rest)
  | 'f' :: rest => some (Char.ofNat 12, rest)
  | 'r' :: rest => some ('\r', rest)
  | '"' :: rest => some ('"', rest)
  | '\\' :: rest => some ('\\', rest)
  | 'u' :: rest => numberEscape? 4 rest
  | 'U' :: rest => numberEscape? 8 rest
  | _ => none

/-- Reads a string after its opening double quote; each character takes one step of `fuel`. -/
def basicString (acc : List Char) : Nat → Reader String
  | 0, _ => none
  | fuel + 1, cs =>
    match cs with
    | '"' :: rest => some (String.ofList acc.reverse, rest)
    | '\\' :: rest =>
      match escape? rest with
      | some (c, rest) => basicString (c :: acc) fuel rest
      | none => none
    | c :: rest => if isText c then basicString (c :: acc) fuel rest else none
    | [] => none

/-- Reads a string after its opening single quote. -/
def literalString (acc : List Char) : Reader String
  | '\'' :: rest => some (String.ofList acc.reverse, rest)
  | c :: rest => if isText c then literalString (c :: acc) rest else none
  | [] => none

/-- Leaves out blanks and line ends after a backslash at the end of a line. -/
def skipBlankLines : List Char → List Char
  | ' ' :: rest => skipBlankLines rest
  | '\t' :: rest => skipBlankLines rest
  | '\n' :: rest => skipBlankLines rest
  | '\r' :: '\n' :: rest => skipBlankLines rest
  | cs => cs

/-- Reads a string of several lines after its opening quotes. Up to two quotes may stand before the
closing ones. With `escapes` a backslash escapes a character or joins two lines. -/
def multilineString (quote : Char) (escapes : Bool) (acc : List Char) : Nat → Reader String
  | 0, _ => none
  | fuel + 1, cs =>
    let quotes := (cs.takeWhile (· = quote)).length
    if 3 ≤ quotes then
      let inside := quotes - 3
      if inside ≤ 2 then
        some (String.ofList (List.replicate inside quote ++ acc).reverse, cs.drop quotes)
      else some (String.ofList (quote :: quote :: acc).reverse, cs.drop 5)
    else if 0 < quotes then
      multilineString quote escapes (List.replicate quotes quote ++ acc) fuel (cs.drop quotes)
    else
      match cs with
      | [] => none
      | '\n' :: rest => multilineString quote escapes ('\n' :: acc) fuel rest
      | '\r' :: '\n' :: rest => multilineString quote escapes ('\n' :: acc) fuel rest
      | '\\' :: rest =>
        if escapes then
          match newline? (skipSpace rest) with
          | some rest => multilineString quote escapes acc fuel (skipBlankLines rest)
          | none =>
            match escape? rest with
            | some (c, rest) => multilineString quote escapes (c :: acc) fuel rest
            | none => none
        else multilineString quote escapes ('\\' :: acc) fuel rest
      | c :: rest => if isText c then multilineString quote escapes (c :: acc) fuel rest else none

/-- Leaves out the line end right after opening quotes. -/
def skipFirstNewline (cs : List Char) : List Char := (newline? cs).getD cs

/-- Reads a string of any of the four kinds. -/
def string : Reader String
  | '"' :: '"' :: '"' :: rest =>
    multilineString '"' true [] (rest.length + 1) (skipFirstNewline rest)
  | '\'' :: '\'' :: '\'' :: rest =>
    multilineString '\'' false [] (rest.length + 1) (skipFirstNewline rest)
  | '"' :: rest => basicString [] (rest.length + 1) rest
  | '\'' :: rest => literalString [] rest
  | _ => none

/-! ## Keys -/

def isBareKey (c : Char) : Bool := c.isAlphanum || c = '_' || c = '-'

/-- Reads one part of a key: bare, or a string of one line. -/
def simpleKey : Reader String
  | '"' :: rest => basicString [] (rest.length + 1) rest
  | '\'' :: rest => literalString [] rest
  | cs =>
    let key := cs.takeWhile isBareKey
    if key.isEmpty then none else some (String.ofList key, cs.dropWhile isBareKey)

/-- The most parts that a key may have. -/
def maxDepth : Nat := 80

/-- Reads the parts of a key, with blanks around each and points between them. -/
def key (acc : List String) : Nat → Reader (List String)
  | 0, _ => none
  | fuel + 1, cs =>
    match simpleKey (skipSpace cs) with
    | none => none
    | some (part, rest) =>
      match skipSpace rest with
      | '.' :: rest => key (part :: acc) fuel rest
      | rest => some ((part :: acc).reverse, rest)

/-! ## Numbers -/

def isDigit (c : Char) : Bool := '0' ≤ c && c ≤ '9'

/-- Reads digits with single underscores between them; returns the digits. -/
def digits (isDigit : Char → Bool) (acc : List Char) : List Char → List Char × List Char
  | '_' :: c :: rest =>
    if !acc.isEmpty && isDigit c then digits isDigit (c :: acc) rest
    else (acc.reverse, '_' :: c :: rest)
  | c :: rest => if isDigit c then digits isDigit (c :: acc) rest else (acc.reverse, c :: rest)
  | [] => (acc.reverse, [])

/-- The value of digits to a base. -/
def valueOf (base : Nat) (ds : List Char) : Nat :=
  ds.foldl (fun n c => base * n + (Json.hexValue? c).getD 0) 0

/-- Reads an integer to another base after its mark. -/
def radixInteger (base : Nat) (cs : List Char) : Option (Int × List Char) :=
  let digitOk (c : Char) : Bool := (Json.hexValue? c).any fun d => d < base
  let (ds, rest) := digits digitOk [] cs
  let n := valueOf base ds
  if ds.isEmpty || Word.maxI64 < (n : Int) then none else some (n, rest)

/-- Takes a sign off the front. -/
def sign : List Char → Bool × List Char
  | '+' :: rest => (false, rest)
  | '-' :: rest => (true, rest)
  | rest => (false, rest)

/-- Reads a decimal integer without leading zeros: its sign and digits. -/
def decimal (cs : List Char) : Option ((Bool × List Char) × List Char) :=
  let (negative, rest) := sign cs
  let (ds, rest) := digits isDigit [] rest
  match ds with
  | [] => none
  | '0' :: _ :: _ => none
  | ds => some ((negative, ds), rest)

/-- Reads an integer of 64 bits. -/
def integer : Reader Int
  | '0' :: 'x' :: rest => radixInteger 16 rest
  | '0' :: 'o' :: rest => radixInteger 8 rest
  | '0' :: 'b' :: rest => radixInteger 2 rest
  | cs =>
    match decimal cs with
    | none => none
    | some ((negative, ds), rest) =>
      let n : Int := if negative then -(valueOf 10 ds : Int) else valueOf 10 ds
      if Word.minI64 ≤ n && n ≤ Word.maxI64 then some (n, rest) else none

/-- Reads an exponent: its value. -/
def exponent : Reader Int
  | c :: rest =>
    if c = 'e' || c = 'E' then
      let (negative, rest) := sign rest
      let (ds, rest) := digits isDigit [] rest
      if ds.isEmpty then none
      else
        let n : Int := valueOf 10 (ds.take 12)
        some (if negative then -n else n, rest)
    else none
  | [] => none

/-- Whether whole digits, fraction digits and an exponent make a number beyond every double. -/
def overflows (whole fraction : List Char) (e : Int) : Bool :=
  let n := valueOf 10 (whole ++ fraction)
  let power := e - fraction.length
  let size := (Nat.toDigits 10 n).length + power
  if n = 0 || size < 300 then false
  else if 400 < size then true
  else if 0 ≤ power then (Binary64.ofRatio false (n * Nat.pow 10 power.toNat) 1).isInfinite
  else (Binary64.ofRatio false n (Nat.pow 10 (-power).toNat)).isInfinite

/-- Reads a number with a fraction or an exponent, an infinity, or what is no number. -/
def float (cs : List Char) : Option (Unit × List Char) :=
  match sign cs with
  | (_, 'i' :: 'n' :: 'f' :: rest) => some ((), rest)
  | (_, 'n' :: 'a' :: 'n' :: rest) => some ((), rest)
  | _ =>
    match decimal cs with
    | none => none
    | some ((_, whole), '.' :: rest) =>
      let (fraction, rest) := digits isDigit [] rest
      if fraction.isEmpty then none
      else
        match exponent rest with
        | some (e, rest) => if overflows whole fraction e then none else some ((), rest)
        | none => if overflows whole fraction 0 then none else some ((), rest)
    | some ((_, whole), rest) =>
      match exponent rest with
      | some (e, rest) => if overflows whole [] e then none else some ((), rest)
      | none => none

/-! ## Dates and times -/

/-- Reads a number of exactly `width` digits. -/
def fixedDigits (width : Nat) (cs : List Char) : Option (Nat × List Char) :=
  let ds := cs.take width
  if ds.length = width && ds.all isDigit then some (valueOf 10 ds, cs.drop width) else none

/-- The number of days of a month. -/
def daysIn (year month : Nat) : Nat :=
  if month = 2 then
    if year % 4 = 0 && (year % 100 ≠ 0 || year % 400 = 0) then 29 else 28
  else if month = 4 || month = 6 || month = 9 || month = 11 then 30
  else 31

/-- Reads a day of the calendar. -/
def date (cs : List Char) : Option (List Char) :=
  match fixedDigits 4 cs with
  | some (year, '-' :: rest) =>
    match fixedDigits 2 rest with
    | some (month, '-' :: rest) =>
      match fixedDigits 2 rest with
      | some (day, rest) =>
        if 1 ≤ month && month ≤ 12 && 1 ≤ day && day ≤ daysIn year month then some rest else none
      | none => none
    | _ => none
  | _ => none

/-- Reads a time of the day. -/
def time (cs : List Char) : Option (List Char) :=
  match fixedDigits 2 cs with
  | some (hour, ':' :: rest) =>
    match fixedDigits 2 rest with
    | some (minute, ':' :: rest) =>
      match fixedDigits 2 rest with
      | some (second, rest) =>
        if 24 ≤ hour || 60 ≤ minute || 61 ≤ second then none
        else
          match rest with
          | '.' :: c :: more => if isDigit c then some (more.dropWhile isDigit) else some rest
          | rest => some rest
      | none => none
    | _ => none
  | _ => none

/-- Reads the offset of a time zone. -/
def offset : List Char → Option (List Char)
  | 'Z' :: rest => some rest
  | 'z' :: rest => some rest
  | c :: rest =>
    if c = '+' || c = '-' then
      match fixedDigits 2 rest with
      | some (hour, ':' :: rest) =>
        match fixedDigits 2 rest with
        | some (minute, rest) => if hour < 24 && minute < 60 then some rest else none
        | none => none
      | _ => none
    else none
  | [] => none

/-- Reads a date, a time, or both. -/
def dateTime (cs : List Char) : Option (List Char) :=
  match date cs with
  | none => time cs
  | some rest =>
    match rest with
    | c :: more =>
      if c = 'T' || c = 't' || c = ' ' then
        match time more with
        | some after => some ((offset after).getD after)
        | none => some rest
      else some rest
    | [] => some []

/-- Reads a number, truth value or date. -/
def plainValue : Reader Json
  | 't' :: 'r' :: 'u' :: 'e' :: rest => some (.bool true, rest)
  | 'f' :: 'a' :: 'l' :: 's' :: 'e' :: rest => some (.bool false, rest)
  | cs =>
    match dateTime cs with
    | some rest => some (.obj [("date", .null)], rest)
    | none =>
      match float cs with
      | some (_, rest) => some (.num (.float (Binary64.zero false)), rest)
      | none => (integer cs).map fun (i, rest) => (.int i, rest)

end DiagnosticBroker.Toml
