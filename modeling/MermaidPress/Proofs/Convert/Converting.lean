/-
A conversion that goes well. Where the output directory can be made and every render in a row
succeeds, a conversion makes these renders and no other call, and gives the document with a
reference in the place of each diagram: the one to the image that was rendered from it.
-/
import MermaidPress.Backend.Dummy
import MermaidPress.Convert.Converter
import MermaidPress.Proofs.Convert.Repairing
import MermaidPress.Proofs.Render.Frame

namespace MermaidPress

open Text Document

variable {b : Backend}

/-! ## Renders in a row -/

/-- One render: a diagram source and the path of its image. -/
structure RenderJob where
  source : Text
  output : Path
  deriving DecidableEq, Repr

/-- Renders in a row, each of which succeeds, lead from one session to another. -/
inductive Session.Renders (spec : RenderSpec) : Session b → List RenderJob → Session b → Prop
  | nil (s : Session b) : Renders spec s [] s
  | cons {s s' s'' : Session b} {job : RenderJob} {jobs : List RenderJob} :
      render job.source job.output spec s = (.ok (), s') → Renders spec s' jobs s'' →
      Renders spec s (job :: jobs) s''

theorem Session.Renders.cons_of_ok {spec : RenderSpec} {s s' : Session b} {job : RenderJob}
    {jobs : List RenderJob} (h : (Session.render job.source job.output spec s).1 = .ok ())
    (hrest : Session.Renders spec (Session.render job.source job.output spec s).2 jobs s') :
    Session.Renders spec s (job :: jobs) s' := .cons (Prod.ext h rfl) hrest

/-- Where the image with number `index` goes. -/
def ConversionOptions.imagePath (options : ConversionOptions) (path : Path) (index : Nat) : Path :=
  Path.join options.outputDirectory (imageFileName (baseName path) index options.format.name)

/-- The renders of a document's blocks, numbered from `index` on. -/
def renderJobs (options : ConversionOptions) (path : Path) (index : Nat) (blocks : List Block) :
    List RenderJob :=
  (blocks.zipIdx index).map fun (block, i) =>
    { source := block.content, output := options.imagePath path i }

/-- The reference to the image with number `index`, as it stands in the document at `path`. -/
def ConversionOptions.referenceTo (options : ConversionOptions) (current path : Path)
    (index : Nat) : Text :=
  imageReference index (Path.relativeReference current path (options.imagePath path index))

namespace Conversion

open Session

theorem ofRendering_of_ok {α : Type} {work : Rendering b α} {s s' : Session b} {a : α}
    (h : work s = (.ok a, s')) (index : Nat) : ofRendering index work s = (.ok a, s') := by
  unfold ofRendering
  rw [h]

theorem snd_ofRendering {α : Type} (index : Nat) (work : Rendering b α) (s : Session b) :
    (ofRendering index work s).2 = (work s).2 := by
  unfold ofRendering
  split <;> simp [*]

/-- `renderBlocks` renders the blocks in their order, and each reference is to its own image. -/
theorem renderBlocks_of_renders {options : ConversionOptions} {path : Path} {blocks : List Block}
    {index : Nat} {s s' : Session b}
    (h : Renders options.renderSpec s (renderJobs options path index blocks) s') :
    renderBlocks options path index blocks s =
      (.ok ((List.range' index blocks.length).map fun i =>
        { image := options.imagePath path i,
          reference := options.referenceTo s.files.current path i }), s') := by
  induction blocks generalizing index s with
  | nil =>
    cases h
    rfl
  | cons block blocks ih =>
    rw [renderJobs, List.zipIdx_cons, List.map_cons] at h
    cases h with
    | @cons _ next _ _ _ hrender hrest =>
      have hrender : render block.content (options.imagePath path index) options.renderSpec s =
          (.ok (), next) := hrender
      have hcurrent : next.files.current = s.files.current := by
        have := within_render block.content (options.imagePath path index) options.renderSpec s
        rw [hrender] at this
        exact this
      have hrest := ih hrest
      rw [hcurrent] at hrest
      rw [renderBlocks, List.length_cons, List.range'_succ]
      refine (Interaction.bind_of_ok (ofRendering_of_ok hrender index)).trans ?_
      have hseen : (currentDirectory : Conversion b Path) next = (.ok s.files.current, next) :=
        hcurrent ▸ rfl
      refine (Interaction.bind_of_ok hseen).trans ?_
      exact Interaction.bind_of_ok hrest

/-- The blocks of a document after `checkBlocks`, as far as a check is asked for. -/
def checkedBlocks (options : ConversionOptions) (document : Text) : List CheckedBlock :=
  if options.checksSyntax then checkBlocks options.autoFix 1 (extract document) else []

theorem checkedBlocks_of_autoFix {options : ConversionOptions} (h : options.autoFix = true)
    (document : Text) : checkedBlocks options document = checkBlocks true 1 (extract document) := by
  rw [checkedBlocks, h, if_pos]
  simp [ConversionOptions.checksSyntax, h]

theorem any_changed_of_not_autoFix {options : ConversionOptions} (h : options.autoFix = false)
    (document : Text) : (checkedBlocks options document).any CheckedBlock.changed = false := by
  rw [checkedBlocks, h]
  split
  · exact any_changed_checking 1 _
  · rfl

theorem ofReplacement_ok (t : Text) : (ofReplacement (.ok t) : Conversion b Text) = pure t := rfl

/-- The `fixedDocument?` of a conversion is the document with its diagrams repaired: the blocks of a
scan fit, so putting the repaired fences in their place does not fail. -/
theorem repairing_outcome (options : ConversionOptions) (document : Text) :
    (checkedBlocks options document).any CheckedBlock.changed = false ∧
        fixedDocument? options document = none ∨
      (checkedBlocks options document).any CheckedBlock.changed = true ∧
        ∃ fixed, fixedDocument? options document = some fixed ∧
          replaceBlocks document (extract document)
            ((checkedBlocks options document).map CheckedBlock.replacement) = .ok fixed := by
  unfold fixedDocument?
  cases hfix : options.autoFix with
  | false => exact .inl ⟨any_changed_of_not_autoFix hfix document, by simp⟩
  | true =>
    rw [checkedBlocks_of_autoFix hfix, any_changed_checkBlocks document fun _ h => h,
      map_replacement_checkBlocks document fun _ h => h,
      replaceBlocks_extract (by simp)]
    by_cases hsame : (extract document).map Block.repaired = (extract document).map Block.full
    · exact .inl ⟨by simp [hsame], by simp [hsame]⟩
    · exact .inr ⟨by simp [hsame], _, by simp [hsame], rfl⟩

/-- The part of `convertText` that renders: the document with its references, and the images. -/
def renderDocument (options : ConversionOptions) (path : Path) (source : Text) :
    Conversion b (Text × List Path) := do
  onFiles options.outputDirectory fun files => files.makeDirectories options.outputDirectory
  let rendered ← renderBlocks options path 1 (extract source)
  let content ← ofReplacement
    (replaceBlocks source (extract source) (rendered.map Rendered.reference))
  pure (content, rendered.map Rendered.image)

/-- What `convertText` gives: what is found and repaired follows from the document alone. -/
def convertedDocument (options : ConversionOptions) (document : Text) (content : Option Text)
    (images : List Path) : ConvertedDocument where
  content := content
  fixed := fixedDocument? options document
  findings := (checkedBlocks options document).filterMap CheckedBlock.findings
  images := images

/-- **`convertText` is a check, and where more is asked for, the `renderDocument` of the fixed
document.** -/
theorem convertText_eq {document : Text} (hne : extract document ≠ []) (path : Path)
    (options : ConversionOptions) :
    (convertText document path options : Conversion b ConvertedDocument) =
      if options.validateOnly then pure (convertedDocument options document none [])
      else (do
        let (content, images) ←
          renderDocument options path ((fixedDocument? options document).getD document)
        pure (convertedDocument options document (some content) images)) := by
  unfold convertText renderDocument convertedDocument
  rw [if_neg (by simpa using hne)]
  dsimp only
  rw [← checkedBlocks]
  rcases repairing_outcome options document with ⟨hany, hfixed⟩ | ⟨hany, fixed, hfixed, hrun⟩
  · rw [hany, hfixed]
    simp only [Bool.false_eq_true, if_false, pure_bind, bind_assoc]
    rfl
  · rw [hany, hfixed, hrun, ofReplacement_ok]
    simp only [if_true, map_pure, pure_bind, bind_assoc]
    rfl

theorem onFiles_of_ok {path : Path} {run : FileSystem → FileSystem.Outcome} {s : Session b}
    {files : FileSystem} (h : run s.files = (.ok (), files)) :
    onFiles path run s = (.ok (), { s with files }) := by
  unfold onFiles
  rw [h]
  rfl

/-- A document whose renders succeed gets a reference to its own image in the place of each
block. -/
theorem renderDocument_of_renders {source : Text} {path : Path} {options : ConversionOptions}
    {s s' : Session b} {files : FileSystem}
    (hdirectory : s.files.makeDirectories options.outputDirectory = (.ok (), files))
    (hrenders : Renders options.renderSpec { s with files }
      (renderJobs options path 1 (extract source)) s') :
    renderDocument options path source s =
      (.ok (splice source (extract source)
          ((List.range' 1 (extract source).length).map (options.referenceTo s.files.current path)),
        (List.range' 1 (extract source).length).map (options.imagePath path)), s') := by
  have hcurrent : files.current = s.files.current := by
    have := FileSystem.current_makeDirectories s.files options.outputDirectory
    rw [hdirectory] at this
    exact this
  have hrun := renderBlocks_of_renders hrenders
  unfold renderDocument
  rw [Interaction.bind_of_ok (onFiles_of_ok hdirectory), Interaction.bind_of_ok hrun]
  simp only [List.map_map, Function.comp_def, hcurrent]
  rw [replaceBlocks_extract (by simp), ofReplacement_ok]
  rfl

theorem writeDocument_of_ok {path : Path} {text? : Option Text} {s : Session b} {files : FileSystem}
    (h : text?.elim (.ok s.files) (s.files.writeText path) = .ok files) :
    writeDocument path text? s = (.ok (text?.map fun _ => path), { s with files }) := by
  cases text? with
  | none =>
    obtain rfl := Except.ok.inj h
    rfl
  | some text =>
    have hfiles : (s.files.whole (s.files.writeText path text)) = (.ok (), files) := by
      rw [Option.elim_some] at h
      rw [h]
      rfl
    exact Interaction.bind_of_ok (onFiles_of_ok hfiles)

/-- **A conversion whose renders succeed.** The renders are those of the blocks of the fixed
document, in their order; that document, with a reference to its own image in the place of each
block, is what `convertText` gives and what `convertFile` writes beside the input. -/
theorem convert_of_renders {document : Text} {path : Path} {options : ConversionOptions}
    {s s' : Session b} {files : FileSystem} (hne : extract document ≠ [])
    (hvalidate : options.validateOnly = false)
    (hdirectory : s.files.makeDirectories options.outputDirectory = (.ok (), files))
    (hrenders : Renders options.renderSpec { s with files }
      (renderJobs options path 1 (extract ((fixedDocument? options document).getD document))) s') :
    let source := (fixedDocument? options document).getD document
    let numbers := List.range' 1 (extract source).length
    let images := numbers.map (options.imagePath path)
    let content := splice source (extract source)
      (numbers.map (options.referenceTo s.files.current path))
    convertText document path options s =
        (.ok (convertedDocument options document (some content) images), s') ∧
      (∀ piece ∈ outsideFrom source 0 (extract source), piece.isSome) ∧
      ∀ written converted, s.files.readText path = .ok document →
        (fixedDocument? options document).elim (.ok s'.files)
          (s'.files.writeText (repairedPath path)) = .ok written →
        written.writeText (convertedPath path) content = .ok converted →
        convertFile path options s =
            (.ok {
              outputFile := some (convertedPath path)
              imageDirectory := options.outputDirectory
              convertedCount := (extract source).length
              fixedFile := (fixedDocument? options document).map fun _ => repairedPath path
              findings := (checkedBlocks options document).filterMap CheckedBlock.findings
              images }, { s' with files := converted }) ∧
          converted.readText (convertedPath path) = .ok content := by
  intro source numbers images content
  have htext : convertText document path options s =
      (.ok (convertedDocument options document (some content) images), s') := by
    rw [convertText_eq hne, hvalidate]
    exact Interaction.bind_of_ok (renderDocument_of_renders hdirectory hrenders)
  refine ⟨htext, isSome_of_mem_outsideFrom [] (areFences_extract source).fitAll,
    fun written converted hread hfixed hcontent => ⟨?_, FileSystem.readText_of_writeText hcontent⟩⟩
  have hdocument : readDocument path s = (.ok document, s) := by
    unfold readDocument
    rw [hread]
  have hconverted : writeDocument (convertedPath path) (some content) { s' with files := written } =
      (.ok (some (convertedPath path)), { s' with files := converted }) := writeDocument_of_ok hcontent
  unfold convertFile
  rw [Interaction.bind_of_ok hdocument, Interaction.bind_of_ok htext, hvalidate]
  refine (Interaction.bind_of_ok (writeDocument_of_ok hfixed)).trans ?_
  refine (Interaction.bind_of_ok hconverted).trans ?_
  have hcount : images.length = (extract source).length := by simp [images, numbers]
  rw [← hcount]
  rfl

/-! ### Two diagrams -/

/-- A document with two diagrams, the first of which is repaired. -/
def twoDiagrams : Text := "a\n```mermaid\nA-->B\n```\nb\n```mermaid\nC\n```\n".toList

/-- A session over a dummy browser, with `twoDiagrams` at `/w/a.md`. -/
def twoDiagramsSession : Session Dummy.backend where
  machine := {}
  files := {
    current := "/w".toList
    nodes := [(["w".toList], .directory),
      (["w".toList, "a.md".toList], .file (String.ofList twoDiagrams).toUTF8)] }

/-- The images go beside the document, and repairs are asked for. -/
def twoDiagramsOptions : ConversionOptions :=
  { outputDirectory := "/w/i".toList, autoFix := true }

theorem eq_ok_of_isOk {ε α : Type} {result : Except ε α} (h : result.isOk = true) (a : α) :
    result = .ok (result.toOption.getD a) := by
  cases result with
  | ok a => rfl
  | error e => cases h

theorem convert_two_diagrams : ∃ result s',
    convertFile "/w/a.md".toList twoDiagramsOptions twoDiagramsSession = (.ok result, s') ∧
      result.convertedCount = 2 ∧
      result.images = ["/w/i/a-diagram-1.png".toList, "/w/i/a-diagram-2.png".toList] ∧
      s'.files.readText "/w/a-converted.md".toList = .ok
        ("a\n![Mermaid Diagram 1](i/a-diagram-1.png)\n".toList ++
          "b\n![Mermaid Diagram 2](i/a-diagram-2.png)\n".toList) := by
  have hjobs : renderJobs twoDiagramsOptions "/w/a.md".toList 1
      (extract ((fixedDocument? twoDiagramsOptions twoDiagrams).getD twoDiagrams)) =
        [⟨"A --> B".toList, "/w/i/a-diagram-1.png".toList⟩,
          ⟨"C".toList, "/w/i/a-diagram-2.png".toList⟩] := by decide +kernel
  have hrenders : Renders twoDiagramsOptions.renderSpec
      { twoDiagramsSession with
        files := (twoDiagramsSession.files.makeDirectories "/w/i".toList).2 }
      [⟨"A --> B".toList, "/w/i/a-diagram-1.png".toList⟩,
        ⟨"C".toList, "/w/i/a-diagram-2.png".toList⟩] _ :=
    .cons_of_ok (by decide +kernel) (.cons_of_ok (by decide +kernel) (.nil _))
  rw [← hjobs] at hrenders
  obtain ⟨-, -, hfile⟩ := convert_of_renders (by decide +kernel) rfl
    (Prod.ext (by decide +kernel) rfl) hrenders
  have hpath : convertedPath "/w/a.md".toList = "/w/a-converted.md".toList := by decide +kernel
  obtain ⟨hresult, hread⟩ := hfile _ _ (by decide +kernel)
    (eq_ok_of_isOk (by decide +kernel) twoDiagramsSession.files)
    (eq_ok_of_isOk (by decide +kernel) twoDiagramsSession.files)
  rw [hpath] at hread
  exact ⟨_, _, hresult, by decide +kernel, by decide +kernel, hread.trans (by decide +kernel)⟩

end Conversion
end MermaidPress
