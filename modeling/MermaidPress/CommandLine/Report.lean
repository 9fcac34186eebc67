/-
What the program says: lines with a tone, which becomes a colour where colours are wanted,
and the report on a finished conversion.
-/
import MermaidPress.CommandLine.Style
import MermaidPress.Convert.Basic

namespace MermaidPress.CommandLine

/-- The tone of a line. -/
inductive Tone
  | plain
  | heading
  | success
  | warning
  | failure
  /-- A line of a list. -/
  | item
  deriving DecidableEq, Repr

/-- A line for the user. -/
structure Line where
  tone : Tone
  text : Text
  deriving DecidableEq, Repr

/-- A line from a string. -/
def Line.of (tone : Tone) (text : String) : Line := { tone, text := text.toList }

/-- The codes of a tone: red, green, yellow or cyan, and bold for headings. -/
def Tone.codes : Tone → List Nat
  | plain | item => []
  | heading => [36, 1]
  | success => [32]
  | warning => [33]
  | failure => [31]

/-- A line as it is written. -/
def Line.render (isColored : Bool) (line : Line) : Text :=
  match line.tone with
  | .item => "  ".toList ++ styled isColored dim ['-'] ++ ' ' :: line.text
  | tone => styled isColored tone.codes line.text

/-- What is said about the findings in one diagram. -/
def findingLines (findings : BlockFindings) : List Line :=
  .of .warning s!"Diagram {findings.index}:" ::
    findings.issues.map (fun issue => .of .item issue.message) ++
    findings.fixes.map (fun change => .of .item ("fixed: " ++ change.message))

/-- What is said about a path. -/
def pathLine (tone : Tone) (label : String) (path : Path) : Line :=
  { tone, text := label.toList ++ path }

/-- What is said at the end of a check. -/
def checkSummary (findings : List BlockFindings) : List Line :=
  if findings.isEmpty then [.of .success "No syntax issues found"]
  else [.of .warning s!"Found issues in {findings.length} diagram(s)"]

/-- What is said at the end of a conversion. -/
def conversionSummary (result : ConversionResult) : List Line :=
  .of .success s!"Successfully converted {result.convertedCount} Mermaid diagram(s)" ::
    (result.outputFile.map (pathLine .success "Output file: ")).toList ++
    [pathLine .success "Images saved to: " result.imageDirectory] ++
    (result.fixedFile.map (pathLine .plain "Fixed document: ")).toList

/-- The report on a finished conversion. -/
def report (result : ConversionResult) (options : ConversionOptions) : List Line :=
  result.findings.flatMap findingLines ++
    if options.validateOnly then checkSummary result.findings else conversionSummary result

end MermaidPress.CommandLine
