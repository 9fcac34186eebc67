/-
The program: it checks its input, loads the configuration, converts the document through a
session that is shut down in every case, and reports. Nothing is said on the standard output
but help and the version.
-/
import MermaidPress.Backend.DevTools
import MermaidPress.CommandLine.Arguments
import MermaidPress.CommandLine.Report
import MermaidPress.Convert.Converter

namespace MermaidPress.CommandLine

/-- Why the program fails. -/
inductive Failure
  | unreadableInput (path : Path)
  | notAFile (path : Path)
  | notMarkdown
  | unknownFormat
  | config (cause : ConfigError)
  | files (cause : FileSystem.Error)
  | conversion (cause : ConvertError)
  deriving DecidableEq, Repr

/-- The wording of a failure. -/
def Failure.message : Failure → String
  | unreadableInput path => "Cannot read markdown file: " ++ String.ofList path
  | notAFile path => String.ofList path ++ " is not a file"
  | notMarkdown => "Input file must be a markdown file (.md or .markdown)"
  | unknownFormat => "Format must be either \"png\" or \"jpeg\""
  | config cause => cause.message
  | files cause => cause.message
  | conversion cause => cause.message

/-- The extensions of documents. -/
def documentExtensions : List Text := ["md".toList, "markdown".toList]

/-- Whether there is a document at a path that can be read. -/
def checkInput (fs : FileSystem) (path : Path) : Except Failure Unit :=
  match fs.stat path with
  | .error _ => .error (.unreadableInput path)
  | .ok .directory => .error (.notAFile path)
  | .ok (.file _) =>
    if !(Path.extension? path).any documentExtensions.contains then .error .notMarkdown
    else
      match fs.readBytes path with
      | .error _ => .error (.unreadableInput path)
      | .ok _ => .ok ()

/-- The variable that names a browser for all programs. -/
def commonBrowserVariable : Text := "CHROME".toList

/-- The browser to start: the one that is asked for, or else the one that the environment names
for all programs, if it is there. -/
def browserPath (fs : FileSystem) (env : Environment) (a : Arguments) : Option Path :=
  match a.browser with
  | some path => some path
  | none => (env commonBrowserVariable).filter fs.has

/-- A conversion that is ready to begin. -/
structure Job where
  input : Path
  options : ConversionOptions
  session : SessionOptions
  browser : Option Path

/-- The options of a conversion under a configuration. The directory of the images is made
absolute. -/
def conversionOptions (fs : FileSystem) (config : Config) (a : Arguments) :
    Except Failure ConversionOptions :=
  match ImageFormat.ofName? config.output.format with
  | none => .error .unknownFormat
  | some format =>
    match Path.absolute? fs.current config.output.directory with
    | none => .error (.files .emptyPath)
    | some outputDirectory => .ok {
        outputDirectory
        format
        quality := config.output.quality
        scale := config.output.scale
        verbose := a.verbose
        validateOnly := a.validateOnly
        autoFix := a.fix }

/-- Prepares a conversion. -/
def prepare (fs : FileSystem) (env : Environment) (input : Path) (a : Arguments) :
    Except Failure Job := do
  checkInput fs input
  let config ← (Config.load fs env a.config a.overrides).mapError .config
  let options ← conversionOptions fs config a
  .ok {
    input
    options
    session := config.sessionOptions a.verbose
    browser := browserPath fs env a }

/-- What the program leaves: its lines, whether it failed, the files, the machine behind its
session and all calls to it. -/
structure Finish (σ : Type) where
  lines : List Line
  failed : Bool
  files : FileSystem
  machine : σ
  calls : List Entry := []

/-- The line that reports a failure. -/
def failureLine (failure : Failure) : Line := .of .failure ("Error: " ++ failure.message)

/-- The line that a conversion begins with. -/
def openingLine : Line := .of .heading "Starting Mermaid conversion..."

/-- Carries out a conversion. That the browser cannot be closed is passed over. -/
def Job.run {b : Backend} (job : Job) (fs : FileSystem) (machine : b.State) :
    Finish b.State :=
  let start : Session b := { options := job.session, machine, files := fs }
  let (result, used) := Conversion.convertFile job.input job.options start
  let (_, closed) := Session.shutdown used
  let finish (lines : List Line) (failed : Bool) : Finish b.State := {
    lines := openingLine :: lines
    failed
    files := closed.files
    machine := closed.machine
    calls := closed.trace }
  match result with
  | .ok converted => finish (report converted job.options) false
  | .error cause => finish [failureLine (.conversion cause)] true

/-- Runs a conversion from its arguments. `machine` is the machine behind the session,
given the path of the browser. -/
def run {b : Backend} (machine : Option Path → b.State) (fs : FileSystem) (env : Environment)
    (input : Path) (a : Arguments) : Finish b.State :=
  match prepare fs env input a with
  | .ok job => job.run fs (machine job.browser)
  | .error failure =>
    { lines := [failureLine failure], failed := true, files := fs
      machine := machine (browserPath fs env a) }

end MermaidPress.CommandLine
