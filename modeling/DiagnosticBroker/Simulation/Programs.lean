import DiagnosticBroker.FileTree.Basic
import DiagnosticBroker.Simulation.Script

/-!
# Programs

Backends that are processes are simulated too: a few programs that every system has, among them a
small shell. A command line whose program is none of them cannot be launched. What a program does is
a script: it writes, sleeps, reads its input to the end, and ends.

The shell takes commands one after the other. Words are cut at blanks outside quotes; output can be
sent elsewhere, and `exit` ends the shell early. Of commands joined by `&&`, one that fails keeps
those after it from being run. Commands that the shell does not wait for are left until it has
ended; the process is over then, but its stream stays open until they are done. They read the input
only if it is given to them.
-/

namespace DiagnosticBroker.Simulation.Programs

/-! ## Writing -/

/-- The character that a backslash and a letter stand for. -/
def escape? : Char → Option Char
  | 'n' => some '\n'
  | 'r' => some '\r'
  | 't' => some '\t'
  | '\\' => some '\\'
  | '"' => some '"'
  | 'a' => some '\x07'
  | 'b' => some '\x08'
  | 'f' => some '\x0c'
  | 'v' => some '\x0b'
  | _ => none

/-- A text with its escapes carried out; one that is not known stays as it is. -/
def unescape : List Char → List Char
  | '\\' :: c :: rest =>
    match escape? c with
    | some d => d :: unescape rest
    | none => '\\' :: c :: unescape rest
  | c :: rest => c :: unescape rest
  | [] => []

/-- A format with its arguments filled in; an argument that is missing is empty. -/
def format : List Char → List String → List Char
  | '%' :: '%' :: rest, args => '%' :: format rest args
  | '%' :: 's' :: rest, args => (args.headD "").toList ++ format rest args.tail
  | '%' :: 'd' :: rest, args => (args.headD "0").toList ++ format rest args.tail
  | '\\' :: c :: rest, args =>
    match escape? c with
    | some d => d :: format rest args
    | none => '\\' :: c :: format rest args
  | c :: rest, args => c :: format rest args
  | [], _ => []

/-- The action of writing a text. -/
def write (cs : List Char) : List Action := [.raw (String.ofList cs).toUTF8.toList]

/-! ## Sleeping -/

/-- The milliseconds that a number of seconds spells, with or without a fraction. -/
def milliseconds (s : String) : Nat :=
  let (whole, fraction) := s.toList.span (· ≠ '.')
  let digits := ((fraction.drop 1).filter Char.isDigit ++ ['0', '0', '0']).take 3
  let number (cs : List Char) : Nat :=
    cs.foldl (fun n c => if c.isDigit then 10 * n + (c.toNat - 48) else n) 0
  1000 * number whole + number digits

/-! ## Single programs -/

/-- What a program other than the shell does before it ends, given its arguments. -/
def simple? (name : String) (args : List String) : Option (List Action) :=
  match name with
  | "true" => some []
  | "false" => some []
  | ":" => some []
  | "echo" => some (write (unescape (" ".intercalate args).toList ++ ['\n']))
  | "printf" =>
    match args with
    | [] => some []
    | f :: args => some (write (format f.toList args))
  | "sleep" => some [.sleep (.ofMillis (milliseconds (args.headD "0")))]
  | "cat" => some [.drain true]
  | "grep" =>
    match args with
    | "-qF" :: part :: _ => some [.seek part.toUTF8.toList [] 0]
    | _ => none
  | _ => none

/-! ## The shell -/

/-- A piece of a shell text. -/
inductive Token where
  | word (text : String)
  /-- The next word says where the input of the command comes from. -/
  | input
  /-- The end of a command; the next one follows if it succeeds. -/
  | also
  /-- The end of commands that the shell waits for. -/
  | stop
  /-- The end of commands that the shell does not wait for. -/
  | behind
deriving DecidableEq, Repr

/-- How a character is taken. -/
inductive Quoting where
  | none
  | single
  | double

/-- Cuts a shell text into tokens. `word?` is the word that was begun, backwards. -/
def tokens (quoting : Quoting) (word? : Option (List Char)) : List Char → List Token
  | [] => flush word? []
  | c :: rest =>
    let grown (d : Char) : Option (List Char) := some (d :: word?.getD [])
    match quoting with
    | .single => if c = '\'' then tokens .none word? rest else tokens .single (grown c) rest
    | .double =>
      if c = '"' then tokens .none word? rest
      else
        match c, rest with
        | '\\', d :: rest =>
          if d = '"' || d = '\\' || d = '$' then tokens .double (grown d) rest
          else tokens .double (some (d :: c :: word?.getD [])) rest
        | c, rest => tokens .double (grown c) rest
    | .none =>
      if c = '\'' then tokens .single (some (word?.getD [])) rest
      else if c = '"' then tokens .double (some (word?.getD [])) rest
      else if c = ' ' || c = '\t' then flush word? (tokens .none none rest)
      else if c = ';' || c = '\n' then flush word? (.stop :: tokens .none none rest)
      else
        match c, rest with
        | '\\', d :: rest => tokens .none (grown d) rest
        | '<', '&' :: rest => flushName word? (.input :: tokens .none none rest)
        | '<', rest => flushName word? (.input :: tokens .none none rest)
        | '&', '&' :: rest => flush word? (.also :: tokens .none none rest)
        | '&', rest =>
          -- Output that is sent to another stream: the ampersand is part of the word.
          if word?.any (·.head? = some '>') then tokens .none (grown '&') rest
          else flush word? (.behind :: tokens .none none rest)
        | c, rest => tokens .none (grown c) rest
where
  /-- The word that was begun, in front of further tokens. -/
  flush (word? : Option (List Char)) (rest : List Token) : List Token :=
    match word? with
    | some cs => .word (String.ofList cs.reverse) :: rest
    | none => rest
  /-- The same, but a number is the name of a stream and no word. -/
  flushName (word? : Option (List Char)) (rest : List Token) : List Token :=
    if word?.any (·.all Char.isDigit) then rest else flush word? rest

/-- A command of a shell text. -/
structure Call where
  words : List String := []
  /-- Whether it says where its input comes from. -/
  hasInput : Bool := false

/-- Commands joined by `&&`. -/
structure Job where
  first : Call := {}
  others : List Call := []
  /-- Whether the shell does not wait for them. -/
  isBehind : Bool := false

/-- The commands of a shell text, the first ones apart. -/
def jobs : List Token → Job × List Job
  | [] => ({}, [])
  | t :: ts =>
    let (j, js) := jobs ts
    match t with
    | .word w => ({ j with first.words := w :: j.first.words }, js)
    | .input => ({ j with first := { words := j.first.words.drop 1, hasInput := true } }, js)
    | .also => ({ j with first := {}, others := j.first :: j.others }, js)
    | .stop => ({}, j :: js)
    | .behind => ({ isBehind := true }, j :: js)

/-- Whether a word sends output elsewhere. -/
def isRedirection (w : String) : Bool :=
  w.startsWith ">" || w.startsWith "1>" || w.startsWith "2>"

/-- The words of a command without its redirections. -/
def withoutRedirections : List String → List String
  | [] => []
  | w :: rest =>
    if isRedirection w then
      if w = ">" || w = "1>" || w = "2>" then
        match rest with
        | _ :: rest => withoutRedirections rest
        | [] => []
      else withoutRedirections rest
    else w :: withoutRedirections rest

/-- The actions without what they write. -/
def silenced (as : List Action) : List Action :=
  as.filterMap fun a =>
    match a with
    | .raw _ => none
    | .drain _ => some (.drain false)
    | a => some a

/-- The actions of a program whose input is empty, if it still succeeds. -/
def unfed (as : List Action) : Option (List Action) :=
  if as.any fun a => a matches .seek _ _ _ then none
  else some (as.filter fun a => !a matches .drain _)

/-- What one command does if it succeeds. A program that is not there only complains. -/
def run? (isQuiet isFed : Bool) (name : String) (args : List String) : Option (List Action) := do
  if name = "false" then none
  let as ← simple? name args
  let as ← if isFed then some as else unfed as
  if isQuiet then silenced as else as

/-- Lets a command that turns out to fail leave out the actions of those after it. -/
def guarding (skip : Nat) : Action → Action
  | .seek part line _ => .seek part line skip
  | a => a

/-- What commands joined by `&&` do. `ending` is what the shell does when they end it. -/
def chain (isBehind : Bool) (ending : List Action) : List Call → List Action
  | [] => []
  | c :: rest =>
    let later := chain isBehind ending rest
    let isQuiet := c.words.any fun w => isRedirection w && !w.startsWith "2>"
    let attempt := run? isQuiet (!isBehind || c.hasInput)
    match withoutRedirections c.words with
    | [] => later
    | "exit" :: _ => ending
    | ["exec"] => later
    | "exec" :: name :: args => (attempt name args).getD [] ++ ending
    | name :: args =>
      match attempt name args with
      | some as => as.map (guarding later.length) ++ later
      | none => []

/-- What the commands of a shell do, up to the end of the last one. `behind` is what those do that
it has not waited for. -/
def shell (behind : List Action) : List Job → List Action
  | [] => ending behind
  | j :: js =>
    let calls := j.first :: j.others
    if j.isBehind then shell (behind ++ chain true [] calls) js
    else chain false (ending behind) calls ++ shell behind js
where
  /-- The shell ends. -/
  ending (behind : List Action) : List Action :=
    if behind.isEmpty then [.close] else .detach :: behind ++ [.close]

/-- What a shell does with a text. -/
def ofText (text : String) : List Action :=
  let (j, js) := jobs (tokens .none none text.toList)
  shell [] (j :: js)

/-! ## Launching -/

/-- The name of a program without the directory that programs are in. -/
def bareName (program : String) : String :=
  let dirs := ["/bin/", "/usr/bin/"]
  match dirs.find? fun d => program.startsWith d with
  | some d => String.ofList (program.toList.drop d.length)
  | none => program

/-- What a command does before it ends, if its program is there. -/
def actions? (program : String) (args : List String) : Option (List Action) :=
  match bareName program, args with
  | "sh", "-c" :: text :: _ => some (ofText text)
  | "bash", "-c" :: text :: _ => some (ofText text)
  | "sh", _ => some [.drain false, .close]
  | ":", _ => none
  | name, args => (simple? name args).map (· ++ [.close])

/-- Why a program that is not known cannot be launched: no file can be run. -/
def refusal (files : FileTree) (directory program : String) : IoFault :=
  if program.contains '/' then
    match files.locate directory program with
    | .ok _ => .permissionDenied
    | .error e => e
  else .notFound

/-- The script of the process of a command line. -/
def script (files : FileTree) (directory : String) (command : Command) : Script :=
  match command with
  | [] => { failure := some (.startFailed "empty command") }
  | program :: args =>
    let failed (reason : String) : Script :=
      { failure := some (.startFailed s!"{command.text}: {reason}") }
    if command.any (·.contains '\x00') then failed "nul byte found in provided data"
    else
      match actions? program args with
      | some as => { opening := as }
      | none => failed (refusal files directory program).message

end DiagnosticBroker.Simulation.Programs
