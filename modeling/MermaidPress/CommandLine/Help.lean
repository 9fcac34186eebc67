/-
The help and the version of the program. The help names every option in a first column and
says in a second one what it is for; headings and the names of options are set off. Where
colours are not wanted, all control characters are taken out of it.
-/
import MermaidPress.CommandLine.Arguments
import MermaidPress.CommandLine.Style
import MermaidPress.Text.Terminal

namespace MermaidPress.CommandLine

/-- The name of the program. -/
def programName : String := "mermshot"

/-- The version of the program. -/
def version : String := "0.1.0"

/-- The answer to a request for the version. -/
def versionText : Text := (programName ++ " " ++ version ++ "\n").toList

/-- What the help says about an option. -/
structure OptionHelp where
  letter : Option Char := none
  name : String
  /-- What stands for the value, where the option has one. -/
  value : Option String := none
  purpose : Text

/-- The options, in the order of the help. -/
def optionHelp (env : Environment) : List OptionHelp :=
  let browser := (env browserVariable).getD []
  [ { letter := 'o', name := "output", value := "OUTPUT"
      purpose := "Directory to save the generated images (default: ./images)".toList },
    { letter := 'f', name := "format", value := "FORMAT"
      purpose := "Image format, png or jpeg (default: png)".toList },
    { letter := 'q', name := "quality", value := "QUALITY"
      purpose := "JPEG quality, 1-100 (default: 85)".toList },
    { letter := 's', name := "scale", value := "SCALE"
      purpose := "Device scale factor for higher resolution, 1-5 (default: 2)".toList },
    { letter := 'v', name := "verbose"
      purpose :=
        "Enable verbose output (syntax checks, browser console and render logs)".toList },
    { name := "validate-only"
      purpose := "Only check diagrams for syntax issues; render and write nothing".toList },
    { name := "fix"
      purpose := "Repair common syntax issues before rendering".toList },
    { letter := 'c', name := "config", value := "CONFIG"
      purpose := "Path to configuration file (default: auto-discover mermshot.toml)".toList },
    { name := "browser", value := "BROWSER"
      purpose := "Browser executable (default: auto-detect Chrome or Chromium) [env: ".toList ++
        browserVariable ++ '=' :: browser ++ [']'] },
    { letter := 'h', name := "help", purpose := "Print help".toList },
    { letter := 'V', name := "version", purpose := "Print version".toList } ]

/-- The first column of an option: its letter, its name and what stands for its value. -/
def OptionHelp.usage (option : OptionHelp) : Text :=
  let letter := match option.letter with
    | some c => styled true bold ['-', c] ++ [',', ' ']
    | none => List.replicate 4 ' '
  let value := match option.value with
    | some value => (" <" ++ value ++ ">").toList
    | none => []
  letter ++ styled true bold ("--" ++ option.name).toList ++ value

/-- The length of the first column of an option as it shows. -/
def OptionHelp.usageLength (option : OptionHelp) : Nat := (Terminal.plain option.usage).length

/-- The width of the first column. -/
def usageWidth (options : List OptionHelp) : Nat :=
  (options.map OptionHelp.usageLength).foldl max 0

/-- The line of an option. Where the second column has line breaks, it goes on below itself. -/
def OptionHelp.line (width : Nat) (option : OptionHelp) : Text :=
  let padding := List.replicate (width - option.usageLength) ' '
  let indent := List.replicate (width + 4) ' '
  let purpose := option.purpose.flatMap fun c => if c = '\n' then c :: indent else [c]
  [' ', ' '] ++ option.usage ++ padding ++ [' ', ' '] ++ purpose ++ ['\n']

/-- The help with its styles. -/
def styledHelp (env : Environment) : Text :=
  let options := optionHelp env
  let heading (title : String) : Text := styled true underlined title.toList
  "mermshot - Convert Mermaid diagrams in markdown files to images\n\n".toList ++
    heading "Usage:" ++ ' ' :: styled true bold programName.toList ++
    " [OPTIONS] <MARKDOWN_FILE>\n\n".toList ++
    heading "Arguments:" ++
    "\n  <MARKDOWN_FILE>  Markdown file containing Mermaid diagrams\n\n".toList ++
    heading "Options:" ++ '\n' :: options.flatMap (OptionHelp.line (usageWidth options))

/-- The answer to a request for help. -/
def helpText (isColored : Bool) (env : Environment) : Text :=
  if isColored then styledHelp env else Terminal.plain (styledHelp env)

end MermaidPress.CommandLine
