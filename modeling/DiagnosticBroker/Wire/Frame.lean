import DiagnosticBroker.Text.Blank
import DiagnosticBroker.Text.Numeral
import DiagnosticBroker.Text.Utf8
import DiagnosticBroker.Wire.Message
import DiagnosticBroker.Json.Writer

/-!
# Framed messages

On a byte stream each message is preceded by header lines, of which `Content-Length` gives the
number of bytes of its text, and by an empty line. `Frame.next` reads the message at the front of
what has arrived so far; `Frame.readAll` reads a finished stream up to its end or its first fault.
-/

namespace DiagnosticBroker.Wire.Frame

/-! ## Writing -/

/-- The name of the header with the length of the text. -/
def lengthHeader : String := "Content-Length:"

/-- The frame of a text. -/
def ofText (text : String) : List UInt8 :=
  let body := text.toUTF8.toList
  s!"{lengthHeader} {body.length}\r\n\r\n".toUTF8.toList ++ body

/-- The frame of a JSON document. -/
def ofJson (j : Json) : List UInt8 := ofText j.text

/-- The frame of a message (`write_message`). -/
def ofMessage (m : Message) : List UInt8 := ofJson m.encode

/-- How many bytes the frame of a message has. -/
def size (m : Message) : Nat :=
  let body := m.encode.text.utf8ByteSize
  s!"{lengthHeader} {body}\r\n\r\n".utf8ByteSize + body

/-! ## Reading -/

/-- The longest text that is accepted (`MAX_CONTENT_LENGTH`). -/
def maxLength : Nat := 64 * 1024 * 1024

/-- What the front of a stream holds. -/
inductive Step where
  /-- The stream goes on and what has arrived is no whole frame yet. -/
  | needMore
  /-- A message, and the bytes after it. -/
  | message (message : Message) (rest : List UInt8)
  /-- The stream ended too early or holds something else. -/
  | fault (fault : IoFault)

/-- The first line with its line end, and the bytes after it; without a line end all is one line. -/
def splitLine (bytes : List UInt8) : List UInt8 × List UInt8 :=
  match bytes.span (· ≠ 10) with
  | (line, []) => (line, [])
  | (line, e :: rest) => (line ++ [e], rest)

/-- What a header line says. -/
inductive Header where
  /-- The line is blank: the headers end here. -/
  | blank
  | contentLength (value : Nat)
  /-- Any other header. -/
  | other
  | fault (fault : IoFault)

/-- Reads one header line (`read_headers`). -/
def readHeader (line : List UInt8) : Header :=
  match Utf8.decode line with
  | .error _ => .fault (.invalidData "stream did not contain valid UTF-8")
  | .ok cs =>
    let cs := Text.trim cs
    if cs.isEmpty then .blank
    else if lengthHeader.toList.isPrefixOf cs then
      match Numeral.read Word.maxU64 (Text.trim (cs.drop lengthHeader.length)) with
      | .ok n => .contentLength n
      | .error e => .fault (.invalidData e.message)
    else .other

/-- The fault of a stream that ended before a frame did. -/
def closedFault : IoFault := .unexpectedEnd "Backend closed connection"

/-- Reads the text of a frame, of `length` bytes. -/
def readBody (closed : Bool) (length : Nat) (bytes : List UInt8) : Step :=
  let (body, rest) := bytes.splitAt length
  if body.length < length then
    if closed then .fault (.unexpectedEnd "early eof") else .needMore
  else
    match Utf8.decodeArray ⟨body.toArray⟩ with
    | .error e => .fault (.invalidData e.message)
    | .ok text =>
      match Message.parse text.toList with
      | .ok m => .message m rest
      | .error .notJson => .fault .notJson
      | .error (.misshapen e) => .fault (.misshapen e)

/-- Reads header lines and then the text; `length?` is the length that the headers so far give.
Each line takes one step of `fuel`. -/
def readFrom (closed : Bool) (length? : Option Nat) : Nat → List UInt8 → Step
  | 0, _ => .needMore
  | fuel + 1, bytes =>
    let (line, rest) := splitLine bytes
    if !closed && line.getLast? ≠ some 10 then .needMore
    else if line.isEmpty then .fault closedFault
    else
      match readHeader line with
      | .fault f => .fault f
      | .other => readFrom closed length? fuel rest
      | .contentLength n => readFrom closed (some n) fuel rest
      | .blank =>
        match length? with
        | none => .fault (.invalidData "Missing Content-Length")
        | some n =>
          if maxLength < n then .fault (.invalidData s!"Content-Length {n} exceeds limit")
          else readBody closed n rest

/-- Reads the message at the front of the bytes that have arrived; `closed` tells that no more will
follow (`read_message`). -/
def next (closed : Bool) (bytes : List UInt8) : Step :=
  readFrom closed none (bytes.length + 1) bytes

/-- The messages of a finished stream up to its first fault, and the fault. Each message takes one
step of `fuel`. -/
def readAllFrom : Nat → List UInt8 → List Message × IoFault
  | 0, _ => ([], closedFault)
  | fuel + 1, bytes =>
    match next true bytes with
    | .message m rest =>
      let (ms, f) := readAllFrom fuel rest
      (m :: ms, f)
    | .fault f => ([], f)
    | .needMore => ([], closedFault)

/-- The messages of a finished stream up to its end or its first fault. -/
def readAll (bytes : List UInt8) : List Message × IoFault := readAllFrom (bytes.length + 1) bytes

end DiagnosticBroker.Wire.Frame
