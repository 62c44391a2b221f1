import DiagnosticBroker.FileTree.Basic
import DiagnosticBroker.Text.Utf8

/-!
# Reading a document

A file is announced to a backend as text, so files that are too large, look binary or are not UTF-8
are refused, in this order.
-/

namespace DiagnosticBroker.DocumentText

/-- The number of bytes in which a zero byte means that a file is binary. -/
def probeLength : Nat := 8192

/-- The size that is reported for a directory. -/
def directorySize : Nat := 4096

/-- Whether a zero byte stands among the first bytes. -/
def looksBinary (bytes : ByteArray) : Bool :=
  (bytes.extract 0 probeLength).toList.any (· = 0)

/-- Checks the size of what stands at a path against the limit; the greatest number of 64 bits means
that there is none. -/
def checkSize (path : String) (limit size : Nat) : Except Fault Unit :=
  if limit ≠ Word.maxU64 && limit < size then
    .error (.fileTooLarge path (size / 1024 / 1024) (limit / 1024 / 1024))
  else .ok ()

/-- The text of a file's bytes. -/
def ofBytes (path : String) (bytes : ByteArray) : Except Fault String :=
  if looksBinary bytes then .error (.protocol s!"Cannot validate binary file: {path}")
  else
    match String.fromUTF8? bytes with
    | some text => .ok text
    | none => .error (.protocol s!"File is not UTF-8: {path}")

/-- Reads the document at a path of at most `limit` bytes (`read_document`). -/
def read (t : FileTree) (cwd path : String) (limit : Nat) : Except Fault String :=
  match t.open? cwd path with
  | .error e => .error (.io e)
  | .ok (.file bytes) =>
    match checkSize path limit bytes.size with
    | .error e => .error e
    | .ok () => ofBytes path bytes
  | .ok _ =>
    match checkSize path limit directorySize with
    | .error e => .error e
    | .ok () => .error (.io .isDirectory)

end DiagnosticBroker.DocumentText
