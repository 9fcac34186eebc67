/-
The arguments of the program. Options have a long name and some of them a letter; letters
may be run together, and a value may follow at once, behind `=`, or as the next argument
where that does not look like an option. Behind `--` nothing is an option any more. Each
option is given at most once, and arguments are taken from left to right: a request for
help or the version is answered if nothing before it is wrong.
-/
import MermaidPress.Config.Load
import MermaidPress.Decimal.Numeral

namespace MermaidPress.CommandLine

/-- An option without a value. -/
inductive Flag
  | verbose
  | validateOnly
  | fix
  deriving DecidableEq, Repr

/-- An option with a value. -/
inductive Setting
  | output
  | format
  | quality
  | scale
  | config
  | browser
  deriving DecidableEq, Repr

/-- What an option stands for. -/
inductive Meaning
  | flag (flag : Flag)
  | setting (setting : Setting)
  | help
  | version
  deriving DecidableEq, Repr

/-- What a long name stands for. -/
def Meaning.ofName? (name : Text) : Option Meaning :=
  match String.ofList name with
  | "verbose" => some (.flag .verbose)
  | "validate-only" => some (.flag .validateOnly)
  | "fix" => some (.flag .fix)
  | "output" => some (.setting .output)
  | "format" => some (.setting .format)
  | "quality" => some (.setting .quality)
  | "scale" => some (.setting .scale)
  | "config" => some (.setting .config)
  | "browser" => some (.setting .browser)
  | "help" => some .help
  | "version" => some .version
  | _ => none

/-- What a letter stands for. -/
def Meaning.ofLetter? : Char → Option Meaning
  | 'v' => some (.flag .verbose)
  | 'o' => some (.setting .output)
  | 'f' => some (.setting .format)
  | 'q' => some (.setting .quality)
  | 's' => some (.setting .scale)
  | 'c' => some (.setting .config)
  | 'h' => some .help
  | 'V' => some .version
  | _ => none

/-- The arguments of a conversion. -/
structure Arguments where
  input : Option Path := none
  output : Option Path := none
  format : Option Text := none
  quality : Option UInt8 := none
  scale : Option Float := none
  verbose : Bool := false
  validateOnly : Bool := false
  fix : Bool := false
  config : Option Path := none
  browser : Option Path := none

/-- Why the arguments are no conversion. -/
inductive Refusal
  | unknownOption (argument : Text)
  | missingValue (setting : Setting)
  | unwantedValue (argument : Text)
  | repeated (argument : Text)
  | malformedValue (setting : Setting) (value : Text)
  | secondInput (argument : Text)
  | missingInput
  | emptyInput
  /-- Not an error: help is asked for. -/
  | helpWanted
  /-- Not an error: the version is asked for. -/
  | versionWanted
  deriving DecidableEq, Repr

/-- The name of a setting, as in its option. -/
def Setting.name : Setting → Text
  | output => "output".toList
  | format => "format".toList
  | quality => "quality".toList
  | scale => "scale".toList
  | config => "config".toList
  | browser => "browser".toList

/-- The name of a flag, as in its option. -/
def Flag.name : Flag → Text
  | verbose => "verbose".toList
  | validateOnly => "validate-only".toList
  | fix => "fix".toList

/-- The wording of a refusal. -/
def Refusal.message : Refusal → String
  | unknownOption argument => "unexpected argument '" ++ String.ofList argument ++ "' found"
  | missingValue setting =>
    "a value is required for '--" ++ String.ofList setting.name ++ "' but none was supplied"
  | unwantedValue argument => "unexpected value for '--" ++ String.ofList argument ++ "' found"
  | repeated argument =>
    "the argument '--" ++ String.ofList argument ++ "' cannot be used multiple times"
  | malformedValue setting value =>
    "invalid value '" ++ String.ofList value ++ "' for '--" ++ String.ofList setting.name ++ "'"
  | secondInput argument => "unexpected argument '" ++ String.ofList argument ++ "' found"
  | missingInput => "the following required arguments were not provided: <MARKDOWN_FILE>"
  | emptyInput => "a value is required for '<MARKDOWN_FILE>' but none was supplied"
  | helpWanted => "help is asked for"
  | versionWanted => "the version is asked for"

/-- A path, which is not empty. -/
def path? (value : Text) : Option Path := if value.isEmpty then none else some value

namespace Arguments

/-- Turns on a flag that is off. -/
def turnOn (a : Arguments) (flag : Flag) : Except Refusal Arguments :=
  let once (isOn : Bool) (changed : Arguments) : Except Refusal Arguments :=
    if isOn then .error (.repeated flag.name) else .ok changed
  match flag with
  | .verbose => once a.verbose { a with verbose := true }
  | .validateOnly => once a.validateOnly { a with validateOnly := true }
  | .fix => once a.fix { a with fix := true }

/-- Gives a value to a setting that has none. -/
def assign (a : Arguments) (setting : Setting) (value : Text) : Except Refusal Arguments :=
  let once {α : Type} (old read : Option α) (changed : α → Arguments) :
      Except Refusal Arguments :=
    if old.isSome then .error (.repeated setting.name)
    else
      match read with
      | some v => .ok (changed v)
      | none => .error (.malformedValue setting value)
  match setting with
  | .output => once a.output (path? value) fun v => { a with output := some v }
  | .format => once a.format (some value) fun v => { a with format := some v }
  | .quality => once a.quality (Decimal.byte? value) fun v => { a with quality := some v }
  | .scale => once a.scale (Decimal.float? value) fun v => { a with scale := some v }
  | .config => once a.config (path? value) fun v => { a with config := some v }
  | .browser => once a.browser (path? value) fun v => { a with browser := some v }

/-- Takes an argument that is no option. -/
def takeInput (a : Arguments) (argument : Text) : Except Refusal Arguments :=
  if a.input.isSome then .error (.secondInput argument)
  else
    match path? argument with
    | some input => .ok { a with input := some input }
    | none => .error .emptyInput

/-- What the command line asks for instead of the configuration. -/
def overrides (a : Arguments) : Overrides where
  directory := a.output
  format := a.format
  quality := a.quality
  scale := a.scale

end Arguments

/-- The arguments so far, and the setting whose value has to come next. -/
structure Progress where
  arguments : Arguments := {}
  pending : Option Setting := none

/-- A cluster of letters behind one hyphen. -/
def takeLetters (a : Arguments) : Text → Except Refusal Progress
  | [] => .ok { arguments := a }
  | c :: rest =>
    match Meaning.ofLetter? c with
    | none => .error (.unknownOption [c])
    | some .help => .error .helpWanted
    | some .version => .error .versionWanted
    | some (.flag flag) => do takeLetters (← a.turnOn flag) rest
    | some (.setting setting) =>
      match rest with
      | [] => .ok { arguments := a, pending := some setting }
      | '=' :: value => do .ok { arguments := ← a.assign setting value }
      | value => do .ok { arguments := ← a.assign setting value }

/-- A long option, read behind its hyphens. -/
def takeLong (a : Arguments) (t : Text) : Except Refusal Progress :=
  let (name, value) := match Text.upTo? '=' t with
    | some (name, value) => (name, some value)
    | none => (t, none)
  match Meaning.ofName? name, value with
  | none, _ => .error (.unknownOption name)
  | some (.setting setting), some value => do .ok { arguments := ← a.assign setting value }
  | some (.setting setting), none => .ok { arguments := a, pending := some setting }
  | some _, some _ => .error (.unwantedValue name)
  | some .help, none => .error .helpWanted
  | some .version, none => .error .versionWanted
  | some (.flag flag), none => do .ok { arguments := ← a.turnOn flag }

/-- Takes arguments that are no options. -/
def takeInputs (a : Arguments) : List Text → Except Refusal Arguments
  | [] => .ok a
  | argument :: rest => do takeInputs (← a.takeInput argument) rest

/-- No value is missing. -/
def Progress.settle (progress : Progress) : Except Refusal Arguments :=
  match progress.pending with
  | some setting => .error (.missingValue setting)
  | none => .ok progress.arguments

/-- Takes arguments from left to right. -/
def takeAll (progress : Progress) : List Text → Except Refusal Arguments
  | [] => progress.settle
  | ['-', '-'] :: rest => do takeInputs (← progress.settle) rest
  | ('-' :: '-' :: name) :: rest => do takeAll (← takeLong (← progress.settle) name) rest
  | ('-' :: c :: letters) :: rest => do
    takeAll (← takeLetters (← progress.settle) (c :: letters)) rest
  | argument :: rest =>
    match progress.pending with
    | some setting => do
      takeAll { arguments := ← progress.arguments.assign setting argument } rest
    | none => do takeAll { arguments := ← progress.arguments.takeInput argument } rest

/-- The variable that names the browser where no option does. -/
def browserVariable : Text := "MERMSHOT_BROWSER".toList

/-- The arguments of a conversion, or why they are none. -/
def parse (env : Environment) (arguments : List Text) : Except Refusal (Path × Arguments) := do
  let a ← takeAll {} arguments
  let a ← match a.browser, env browserVariable with
    | none, some value => a.assign .browser value
    | _, _ => .ok a
  match a.input with
  | some input => .ok (input, a)
  | none => .error .missingInput

end MermaidPress.CommandLine
