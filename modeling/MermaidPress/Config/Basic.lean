/-
The configuration: where images go and how they are made, the script and the time limits.
What the command line asks for comes before it, and what makes it unusable is a violation,
looked for in a fixed order.
-/
import MermaidPress.Path.Basic
import MermaidPress.Render.Spec
import MermaidPress.FileSystem.Basic
import MermaidPress.Toml.Fault

namespace MermaidPress

/-- How images are made, and the directory that they go to. -/
structure OutputSettings where
  directory : Path := "images".toList
  /-- The name of the format. -/
  format : Text := ImageFormat.png.name
  quality : UInt8 := 85
  scale : Float := 2.0

/-- The time limits of one render, in seconds. -/
structure TimeLimits where
  pageLoad : Nat := 60
  render : Nat := 45
  settle : Nat := 15
  deriving DecidableEq, Repr

/-- The time limits as spans. -/
def TimeLimits.timeouts (limits : TimeLimits) : Timeouts where
  pageLoad := .ofSeconds limits.pageLoad
  render := .ofSeconds limits.render
  settle := .ofSeconds limits.settle

/-- A configuration, and the file it comes from, if there is one. -/
structure Config where
  output : OutputSettings := {}
  /-- The script that pages load, where the usual one is not meant. -/
  script : Option Text := none
  limits : TimeLimits := {}
  path : Option Path := none

/-- The directory of the images, seen from where the configuration is. -/
def defaultDirectory : Path := "images".toList

/-- The configuration that holds where there is no file, seen from the directory `base`. -/
def Config.standard (base : Path) : Config where
  output := { directory := Path.join base defaultDirectory }

/-- The options of a session under the configuration. -/
def Config.sessionOptions (config : Config) (verbose : Bool) : SessionOptions where
  script := config.script.getD defaultScript
  timeouts := config.limits.timeouts
  verbose := verbose

/-- What makes a configuration unusable. -/
inductive Violation
  | emptyDirectory
  | unknownFormat (name : Text)
  | quality
  | scale
  | emptyScript
  | noPageLoad
  | noRender
  | noSettle
  deriving DecidableEq, Repr

/-- The wording of a violation. -/
def Violation.message : Violation → String
  | emptyDirectory => "output.dir cannot be empty"
  | unknownFormat name =>
    "output.format must be either png or jpeg, got '" ++ String.ofList name ++ "'"
  | quality => "output.quality must be between 1 and 100"
  | scale => "output.scale must be between 1 and 5"
  | emptyScript => "mermaid.script_url cannot be empty"
  | noPageLoad => "timeouts.page_load_secs must be greater than 0"
  | noRender => "timeouts.render_secs must be greater than 0"
  | noSettle => "timeouts.settle_secs must be greater than 0"

/-- The least and the largest scale. -/
def scaleRange : Float × Float := (1.0, 5.0)

/-- The checks of a configuration, in their order: whether each is passed, and what it is a
violation of. The quality counts only for JPEG. -/
def Config.checks (config : Config) : List (Bool × Violation) :=
  let output := config.output
  let limits := config.limits
  [ (!output.directory.isEmpty, .emptyDirectory),
    (output.format = ImageFormat.png.name || output.format = ImageFormat.jpeg.name,
      .unknownFormat output.format),
    (output.format ≠ ImageFormat.jpeg.name || (1 ≤ output.quality && output.quality ≤ 100),
      .quality),
    (scaleRange.1 ≤ output.scale && output.scale ≤ scaleRange.2, .scale),
    (config.script ≠ some [], .emptyScript),
    (0 < limits.pageLoad, .noPageLoad),
    (0 < limits.render, .noRender),
    (0 < limits.settle, .noSettle) ]

/-- The first violation. -/
def Config.violation? (config : Config) : Option Violation :=
  (config.checks.find? fun check => !check.1).map (·.2)

/-- Why there is no configuration. -/
inductive ConfigError
  | notFound (path : Path)
  | unreadable (cause : FileSystem.Error)
  | malformed (problem : Toml.Problem)
  /-- The value of a field is not of its type. -/
  | mistyped (field : Text)
  /-- A value that no field asks for is a number without a meaning. -/
  | unreadableValue
  /-- A variable in a field is neither set nor has a fallback. -/
  | unset (field : Text) (name : Text)
  | invalid (violation : Violation)
  deriving DecidableEq, Repr

/-- The wording of an error. -/
def ConfigError.message : ConfigError → String
  | notFound path => "Configuration file not found: " ++ String.ofList path
  | unreadable cause => "I/O error: " ++ cause.message
  | malformed problem => "TOML parse error: " ++ problem.message
  | mistyped field => "TOML parse error: invalid type for \x60" ++ String.ofList field ++ "\x60\n"
  | unreadableValue => "TOML parse error: number overflowed\n"
  | unset field name =>
    "Environment variable error in " ++ String.ofList field ++ ": $\x7b" ++
      String.ofList name ++ "\x7d not set"
  | invalid violation => "Configuration error: " ++ violation.message

/-- The configuration itself, or its first violation as an error. -/
def Config.validate (config : Config) : Except ConfigError Config :=
  match config.violation? with
  | some violation => .error (.invalid violation)
  | none => .ok config

/-- What the command line asks for. It comes before the configuration, field by field. -/
structure Overrides where
  directory : Option Path := none
  format : Option Text := none
  quality : Option UInt8 := none
  scale : Option Float := none

/-- The configuration with what the command line asks for. -/
def Config.override (config : Config) (overrides : Overrides) : Config :=
  let output := config.output
  { config with
    output := {
      directory := overrides.directory.getD output.directory
      format := (overrides.format.map Text.toLowerAscii).getD output.format
      quality := overrides.quality.getD output.quality
      scale := overrides.scale.getD output.scale } }

end MermaidPress
