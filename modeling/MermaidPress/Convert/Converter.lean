/-
Converting documents through a session: the diagrams are checked and repaired as far as
that is asked for, rendered in their order, and replaced by references to their images. The
first failure ends a conversion; the documents beside the input are written only when all
diagrams are rendered.
-/
import MermaidPress.Convert.Check

namespace MermaidPress

/-- Work on a session that may fail as a conversion does. -/
abbrev Conversion (b : Backend) := Interaction b ConvertError

namespace Conversion

open Document

variable {b : Backend} {α : Type}

/-- A render as a part of the conversion: its failure is that of the diagram `index`. -/
def ofRendering (index : Nat) (work : Rendering b α) : Conversion b α := fun s =>
  match work s with
  | (.ok a, s) => (.ok a, s)
  | (.error e, s) => (.error (.render index e), s)

/-- An operation on the files; its failure is that of `path`. -/
def onFiles (path : Path) (run : FileSystem → FileSystem.Outcome) : Conversion b Unit := fun s =>
  let (result, files) := run s.files
  (result.mapError (.inaccessible path), { s with files })

/-- The text of a file. -/
def readDocument (path : Path) : Conversion b Text := fun s =>
  match s.files.readText path with
  | .ok text => (.ok text, s)
  | .error cause => (.error (.inaccessible path cause), s)

/-- The directory that relative paths are seen from. -/
def currentDirectory : Conversion b Path := fun s => (.ok s.files.current, s)

/-- The result of replacing blocks. -/
def ofReplacement (result : Except ReplacementError Text) : Conversion b Text :=
  Session.settled (result.mapError .replacement)

/-- A rendered diagram: its image and the reference that takes its place. -/
structure Rendered where
  image : Path
  reference : Text
  deriving DecidableEq, Repr

/-- Renders the diagrams, numbered from `index` on. -/
def renderBlocks (options : ConversionOptions) (documentPath : Path) (index : Nat) :
    List Block → Conversion b (List Rendered)
  | [] => pure []
  | block :: rest => do
    let name := imageFileName (baseName documentPath) index options.format.name
    let image := Path.join options.outputDirectory name
    ofRendering index (Session.render block.content image options.renderSpec)
    let current ← currentDirectory
    let reference := imageReference index (Path.relativeReference current documentPath image)
    let others ← renderBlocks options documentPath (index + 1) rest
    pure ({ image, reference } :: others)

/-- Converts a document that is at hand as text. Its path gives the names of the images
and what references are relative to; it need not be that of a file. -/
def convertText (document : Text) (path : Path) (options : ConversionOptions) :
    Conversion b ConvertedDocument := do
  let blocks := extract document
  if blocks.isEmpty then Session.settled (.error .noDiagrams)
  else
    let checked := if options.checksSyntax then checkBlocks options.autoFix 1 blocks else []
    let findings := checked.filterMap CheckedBlock.findings
    let fixed ←
      if checked.any CheckedBlock.changed then
        let replacements := checked.map CheckedBlock.replacement
        some <$> ofReplacement (replaceBlocks document blocks replacements)
      else pure none
    if options.validateOnly then pure { content := none, fixed, findings, images := [] }
    else
      let source := fixed.getD document
      let blocks := match fixed with
        | some repaired => extract repaired
        | none => blocks
      onFiles options.outputDirectory fun files => files.makeDirectories options.outputDirectory
      let rendered ← renderBlocks options path 1 blocks
      let content ← ofReplacement (replaceBlocks source blocks (rendered.map Rendered.reference))
      pure { content := some content, fixed, findings, images := rendered.map Rendered.image }

/-- Writes a text beside the input, if there is one to write, and gives its path. -/
def writeDocument (path : Path) : Option Text → Conversion b (Option Path)
  | none => pure none
  | some text => do
    onFiles path fun files => files.whole (files.writeText path text)
    pure (some path)

/-- Converts the document at a path and writes the results beside it. -/
def convertFile (path : Path) (options : ConversionOptions) : Conversion b ConversionResult := do
  let document ← readDocument path
  let converted ← convertText document path options
  let fixed := if options.validateOnly then none else converted.fixed
  let fixedFile ← writeDocument (repairedPath path) fixed
  let outputFile ← writeDocument (convertedPath path) converted.content
  pure {
    outputFile
    imageDirectory := options.outputDirectory
    convertedCount := converted.images.length
    fixedFile
    findings := converted.findings
    images := converted.images }

end Conversion
end MermaidPress
