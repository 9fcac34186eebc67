/-
What a conversion is asked for, what it finds and what it gives.
-/
import MermaidPress.Diagram.Issue
import MermaidPress.Diagram.Repair
import MermaidPress.Document.Naming
import MermaidPress.Document.Replacement
import MermaidPress.Render.Session

namespace MermaidPress

/-- What a conversion is asked for. The values are used as they are. -/
structure ConversionOptions where
  /-- The directory of the images, made if it is missing. -/
  outputDirectory : Path := "./images".toList
  format : ImageFormat := .png
  quality : UInt8 := 85
  scale : Float := 2.0
  /-- Diagrams are checked also where nothing else asks for it. -/
  verbose : Bool := false
  /-- Diagrams are only checked. -/
  validateOnly : Bool := false
  /-- Diagrams are repaired before they are rendered. -/
  autoFix : Bool := false

namespace ConversionOptions

/-- What each render of the conversion is asked for. -/
def renderSpec (options : ConversionOptions) : RenderSpec where
  format := options.format
  quality := options.quality
  scale := options.scale

/-- Whether diagrams are checked. -/
def checksSyntax (options : ConversionOptions) : Bool :=
  options.validateOnly || options.autoFix || options.verbose

end ConversionOptions

/-- Why a document was not converted. -/
inductive ConvertError
  | noDiagrams
  /-- A file or directory could not be read, written or made. -/
  | inaccessible (path : Path) (cause : FileSystem.Error)
  /-- The diagram with this number was not rendered. -/
  | render (index : Nat) (cause : RenderError)
  | replacement (cause : Document.ReplacementError)
  deriving DecidableEq, Repr

/-- The wording of a failure. -/
def ConvertError.message : ConvertError → String
  | noDiagrams => "No Mermaid diagrams found in the markdown file"
  | inaccessible path cause => "Failed to access " ++ String.ofList path ++ ": " ++ cause.message
  | render index cause => s!"Diagram {index}: " ++ cause.message
  | replacement cause => "Failed to rewrite document: " ++ cause.message

/-- What was found in the diagram with a number, and what was repaired in it. -/
structure BlockFindings where
  index : Nat
  issues : List Diagram.Issue
  fixes : List Diagram.Change
  deriving DecidableEq, Repr

/-- A converted document. -/
structure ConvertedDocument where
  /-- The document with references in the place of its diagrams; none where diagrams were
  only checked. -/
  content : Option Text
  /-- The document with repaired diagrams, where a repair changed it. -/
  fixed : Option Text
  /-- The findings in the diagrams that have any. -/
  findings : List BlockFindings
  /-- The images, in the order of the diagrams. -/
  images : List Path
  deriving DecidableEq, Repr

/-- What a conversion of a file left. -/
structure ConversionResult where
  /-- The converted document; none where diagrams were only checked. -/
  outputFile : Option Path
  imageDirectory : Path
  convertedCount : Nat
  /-- The repaired copy of the document, where one was written. -/
  fixedFile : Option Path
  findings : List BlockFindings
  images : List Path
  deriving DecidableEq, Repr

end MermaidPress
