import DiagnosticBroker.Settings.Basic
import DiagnosticBroker.Text.Numeral

/-!
# The command line

    ALLOWED_DIR... [--config FILE] [--diagnostics-timeout-ms MS] [-v | --verbose]
    -h | --help | -V | --version

Arguments are read from the left. A value is checked when the argument after it is understood, so
an unknown argument is reported before a bad value right in front of it, and after any other.
-/

namespace DiagnosticBroker.CommandLine

/-- What a command line asks for. -/
structure Options where
  allowedDirs : List String
  config : Option String
  diagnosticsTimeoutMs : Option Nat
  verbose : Bool
deriving DecidableEq, Repr

/-- Why a command line leads to no run. -/
inductive Refusal where
  | helpAsked
  | versionAsked
  | missingDirectories
  /-- An option or flag is given twice. -/
  | repeated
  | unknownArgument
  /-- A flag is given a value. -/
  | unexpectedValue
  /-- A value is missing or empty. -/
  | emptyValue
  /-- A value is no number in range. -/
  | badNumber
deriving DecidableEq, Repr

/-- The exit code after a refusal: only what was asked for is no failure. -/
def Refusal.exitCode : Refusal → Nat
  | .helpAsked => 0
  | .versionAsked => 0
  | _ => 2

/-- The options that take a value. -/
inductive ValueOption where
  | config
  | timeout
deriving DecidableEq, Repr

/-- The flags. -/
inductive Flag where
  | verbose
  | help
  | version
deriving DecidableEq, Repr

/-- What a name after two dashes stands for. -/
def longName? : String → Option (ValueOption ⊕ Flag)
  | "config" => some (.inl .config)
  | "diagnostics-timeout-ms" => some (.inl .timeout)
  | "verbose" => some (.inr .verbose)
  | "help" => some (.inr .help)
  | "version" => some (.inr .version)
  | _ => none

/-- What a letter after one dash stands for. -/
def shortName? : Char → Option Flag
  | 'v' => some .verbose
  | 'h' => some .help
  | 'V' => some .version
  | _ => none

/-- Values that were read and are not checked yet. -/
inductive Pending where
  | nothing
  | directories (names : List String)
  | option (option : ValueOption) (value : Option String)
deriving DecidableEq, Repr

/-- How far the command line is understood. -/
structure Progress where
  options : Options := ⟨[], none, none, false⟩
  pending : Pending := .nothing
  /-- Whether a lone `--` was read, after which all is a directory. -/
  onlyDirectories : Bool := false
deriving DecidableEq, Repr

/-- Takes over the value of an option. -/
def setOption (o : Options) (option : ValueOption) (value : Option String) :
    Except Refusal Options :=
  match value, option with
  | none, _ => .error .emptyValue
  | some v, .config =>
    if o.config.isSome then .error .repeated
    else if v.isEmpty then .error .emptyValue
    else .ok { o with config := some v }
  | some v, .timeout =>
    if o.diagnosticsTimeoutMs.isSome then .error .repeated
    else
      match Numeral.readU64? v with
      | some n => .ok { o with diagnosticsTimeoutMs := some n }
      | none => .error .badNumber

/-- Checks the pending values and takes them over. -/
def settle (p : Progress) : Except Refusal Progress :=
  match p.pending with
  | .nothing => .ok p
  | .directories names =>
    if names.any (·.isEmpty) then .error .emptyValue
    else
      .ok { p with
        pending := .nothing
        options := { p.options with allowedDirs := p.options.allowedDirs ++ names } }
  | .option option value => do
    let options ← setOption p.options option value
    return { p with pending := .nothing, options := options }

/-- Takes over a flag. -/
def setFlag (p : Progress) (flag : Flag) : Except Refusal Progress := do
  let p ← settle p
  match flag with
  | .help => .error .helpAsked
  | .version => .error .versionAsked
  | .verbose =>
    if p.options.verbose then .error .repeated
    else return { p with options := { p.options with verbose := true } }

/-- Takes over flags that are given by letters behind one dash. -/
def setFlags (p : Progress) : List Char → Except Refusal Progress
  | [] => .ok p
  | c :: cs =>
    match shortName? c with
    | none => .error .unknownArgument
    | some flag => do setFlags (← setFlag p flag) cs

/-- Reads an argument that begins with two dashes, given what follows them: a name, and perhaps a
value behind an equals sign. -/
def readLong (p : Progress) (cs : List Char) : Except Refusal Progress :=
  let name := String.ofList (cs.takeWhile (· ≠ '='))
  let value := match cs.dropWhile (· ≠ '=') with
    | [] => none
    | _ :: v => some (String.ofList v)
  match longName? name, value with
  | none, _ => .error .unknownArgument
  | some (.inr flag), none => setFlag p flag
  | some (.inr _), some _ => .error .unexpectedValue
  | some (.inl option), none => do
    let p ← settle p
    return { p with pending := .option option none }
  | some (.inl option), some v => do
    let p ← settle p
    let options ← setOption p.options option (some v)
    return { p with options := options }

/-- Reads a directory, or the value that an option waits for. -/
def readPlain (p : Progress) (argument : String) : Except Refusal Progress :=
  match p.pending, p.onlyDirectories with
  | .directories names, _ => .ok { p with pending := .directories (names ++ [argument]) }
  | .option option none, false => .ok { p with pending := .option option (some argument) }
  | _, _ => do
    let p ← settle p
    return { p with pending := .directories [argument] }

/-- Reads one argument. -/
def readArgument (p : Progress) (argument : String) : Except Refusal Progress :=
  if p.onlyDirectories then readPlain p argument
  else
    match argument.toList with
    | ['-', '-'] => .ok { p with onlyDirectories := true }
    | '-' :: '-' :: cs => readLong p cs
    | '-' :: c :: cs => setFlags p (c :: cs)
    | _ => readPlain p argument

/-- Reads a command line, without the name of the program. -/
def parse (arguments : List String) : Except Refusal Options := do
  let p ← settle (← arguments.foldlM readArgument {})
  if p.options.allowedDirs.isEmpty then .error .missingDirectories else return p.options

namespace Options

/-- Lets the command line override the settings. -/
def apply (o : Options) (s : Settings) : Settings :=
  match o.diagnosticsTimeoutMs with
  | some ms => { s with lsp := { s.lsp with diagnosticsTimeoutMs := ms } }
  | none => s

/-- Which log lines are written. -/
def logFilter (o : Options) : String := if o.verbose then "langcheck=debug" else "langcheck=info"

end Options

end DiagnosticBroker.CommandLine
