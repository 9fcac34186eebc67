/-
Styles of text on a terminal. A style is a list of codes: each code is written before the
text, and one code that ends them all behind it. Where colours are not wanted the text stands
alone; whether they are is up to the environment and to the place that the output goes to.
-/
import MermaidPress.Config.Expansion

namespace MermaidPress.CommandLine

/-- Whether the environment asks for colours wherever the output goes. -/
def forcesColors (env : Environment) : Bool := (env "CLICOLOR_FORCE".toList).any (· ≠ ['0'])

/-- Whether the environment leaves colours to terminals. -/
def allowsColors (env : Environment) : Bool :=
  env "CLICOLOR".toList ≠ some ['0'] && (env "TERM".toList).any (· ≠ "dumb".toList)

/-- Whether the lines about a conversion have colours. -/
def colorsLines (env : Environment) (isTerminal : Bool) : Bool :=
  forcesColors env || (isTerminal && allowsColors env && (env "NO_COLOR".toList).isNone)

/-- Whether the help has colours. A variable against them weighs more here than one for them. -/
def colorsHelp (env : Environment) (isTerminal : Bool) : Bool :=
  !(env "NO_COLOR".toList).any (· ≠ []) &&
    (forcesColors env || (isTerminal && allowsColors env))

/-- The codes that begin a style. -/
def style (codes : List Nat) : Text := codes.flatMap fun n => ("\x1b[" ++ toString n ++ "m").toList

/-- A text between the codes of a style and the code that ends it. -/
def styled (isColored : Bool) (codes : List Nat) (t : Text) : Text :=
  if isColored && !codes.isEmpty then style codes ++ t ++ style [0] else t

/-- The code of a dim text. -/
def dim : List Nat := [2]

/-- The code of a bold text. -/
def bold : List Nat := [1]

/-- The codes of a text that is bold and underlined. -/
def underlined : List Nat := [1, 4]

end MermaidPress.CommandLine
