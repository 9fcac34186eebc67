/-
No conversion fails for its replacements. Fences are replaced twice, in the document and in its
repaired copy, which has been scanned again; each time the blocks are those of a scan of the very
text they are replaced in, and there is one replacement for each. Replacing enters a conversion as
a parameter here, `convertTextWith`: whatever it would do with other arguments, the conversion is
the same.
-/
import MermaidPress.Proofs.Convert.Stopping

namespace MermaidPress

open Interaction Document

/-! ## Blocks and replacements that match -/

/-- What `replaceBlocks` asks for: one replacement for each block, and blocks that stand in the text
one behind the other, each at its own place. -/
structure Document.Matches (text : Text) (blocks : List Block) (replacements : List Text) : Prop where
  count : blocks.length = replacements.length
  fit : FitAll text 0 blocks

theorem Document.Matches.replaceBlocks {text : Text} {blocks : List Block} {replacements : List Text}
    (h : Matches text blocks replacements) :
    replaceBlocks text blocks replacements = .ok (splice text blocks replacements) :=
  replaceBlocks_of_fitAll h.count h.fit

/-- The blocks of `extract` match the text that was scanned. -/
theorem Document.matches_extract {text : Text} {replacements : List Text}
    (h : (extract text).length = replacements.length) : Matches text (extract text) replacements :=
  ⟨h, (areFences_extract text).fitAll⟩

theorem length_checkBlocks (autoFix : Bool) (index : Nat) (blocks : List Block) :
    (checkBlocks autoFix index blocks).length = blocks.length := by
  rw [checkBlocks_eq_map, List.length_map, List.length_zipIdx]

namespace Conversion

variable {b : Backend} {s t : Session b}

theorem matches_checkedBlocks {options : ConversionOptions} {document : Text}
    (h : (checkedBlocks options document).any CheckedBlock.changed = true) :
    Matches document (extract document)
      ((checkedBlocks options document).map CheckedBlock.replacement) := by
  refine matches_extract ?_
  unfold checkedBlocks at h ⊢
  split at h
  · rw [if_pos ‹_›, List.length_map, length_checkBlocks]
  · cases h

theorem matches_rendered {options : ConversionOptions} {path : Path} {source : Text} {index : Nat}
    {rendered : List Rendered}
    (h : renderBlocks options path index (extract source) s = (.ok rendered, t)) :
    Matches source (extract source) (rendered.map Rendered.reference) := by
  refine matches_extract ?_
  rw [renderBlocks_of_renders (renders_of_renderBlocks h)] at h
  obtain rfl := Except.ok.inj (Prod.mk.inj h).1
  rw [List.length_map, List.length_map, List.length_range']

/-! ## Failures -/

/-- What may fail in `renderDocument` is its directory or a render. -/
theorem renderDocument_ne_replacement {options : ConversionOptions} {path : Path} {source : Text}
    {cause : ReplacementError} :
    renderDocument options path source s ≠ (.error (.replacement cause), t) := by
  intro h
  unfold renderDocument at h
  rcases bind_eq_error_iff.1 h with hdirectory | ⟨_, _, -, hrest⟩
  · obtain ⟨_, he⟩ := onFiles_eq_error hdirectory
    cases he
  rcases bind_eq_error_iff.1 hrest with hblocks | ⟨rendered, _, hblocks, hrest⟩
  · obtain ⟨_, _, _, _, _, _, -, he, -⟩ := renderBlocks_eq_error hblocks
    cases he
  rw [(matches_rendered hblocks).replaceBlocks, ofReplacement_ok] at hrest
  cases hrest

theorem convertText_ne_replacement {document : Text} {path : Path} {options : ConversionOptions}
    {cause : ReplacementError} :
    convertText document path options s ≠ (.error (.replacement cause), t) := by
  intro h
  by_cases hne : extract document = []
  · rw [convertText_of_extract_eq_nil hne] at h
    cases h
  rw [convertText_eq hne] at h
  split at h
  · cases h
  rcases bind_eq_error_iff.1 h with hrender | ⟨_, _, -, hlast⟩
  · exact renderDocument_ne_replacement hrender
  · cases hlast

theorem convertRead_ne_replacement {document : Text} {path : Path} {options : ConversionOptions}
    {cause : ReplacementError} :
    convertRead document path options s ≠ (.error (.replacement cause), t) := by
  intro h
  unfold convertRead at h
  rcases bind_eq_error_iff.1 h with htext | ⟨_, _, -, hrest⟩
  · exact convertText_ne_replacement htext
  rcases bind_eq_error_iff.1 hrest with hfixed | ⟨_, _, -, hrest⟩
  · obtain ⟨_, he⟩ := writeDocument_eq_error hfixed
    cases he
  rcases bind_eq_error_iff.1 hrest with hconverted | ⟨_, _, -, hlast⟩
  · obtain ⟨_, he⟩ := writeDocument_eq_error hconverted
    cases he
  · cases hlast

theorem convertFile_ne_replacement {path : Path} {options : ConversionOptions}
    {cause : ReplacementError} :
    convertFile path options s ≠ (.error (.replacement cause), t) := by
  intro h
  cases hread : s.files.readText path with
  | error e =>
    rw [convertFile_of_unreadable hread] at h
    cases h
  | ok document =>
    rw [convertFile_of_readText hread] at h
    exact convertRead_ne_replacement h

/-! ## Replacing as a parameter -/

variable {replace replace' : Text → List Block → List Text → Except ReplacementError Text}

/-- What follows the check in `convertText`, with `replace` in the place of `replaceBlocks`. -/
def finishWith (replace : Text → List Block → List Text → Except ReplacementError Text)
    (document : Text) (path : Path) (options : ConversionOptions) (findings : List BlockFindings)
    (fixed : Option Text) : Conversion b ConvertedDocument := do
  if options.validateOnly then pure { content := none, fixed, findings, images := [] }
  else
    let source := fixed.getD document
    let blocks := match fixed with
      | some repaired => extract repaired
      | none => extract document
    onFiles options.outputDirectory fun files => files.makeDirectories options.outputDirectory
    let rendered ← renderBlocks options path 1 blocks
    let content ← ofReplacement (replace source blocks (rendered.map Rendered.reference))
    pure { content := some content, fixed, findings, images := rendered.map Rendered.image }

/-- `convertText` with `replace` in the place of `replaceBlocks`. -/
def convertTextWith (replace : Text → List Block → List Text → Except ReplacementError Text)
    (document : Text) (path : Path) (options : ConversionOptions) :
    Conversion b ConvertedDocument := do
  let blocks := extract document
  if blocks.isEmpty then Session.settled (.error .noDiagrams)
  else
    let checked := if options.checksSyntax then checkBlocks options.autoFix 1 blocks else []
    let findings := checked.filterMap CheckedBlock.findings
    let fixed ←
      if checked.any CheckedBlock.changed then
        some <$> ofReplacement (replace document blocks (checked.map CheckedBlock.replacement))
      else pure none
    finishWith replace document path options findings fixed

theorem convertTextWith_replaceBlocks (document : Text) (path : Path) (options : ConversionOptions) :
    (convertTextWith replaceBlocks document path options : Conversion b ConvertedDocument) =
      convertText document path options := rfl

theorem finishWith_congr
    (h : ∀ text blocks replacements, Matches text blocks replacements →
      replace text blocks replacements = replace' text blocks replacements)
    (document : Text) (path : Path) (options : ConversionOptions) (findings : List BlockFindings)
    (fixed : Option Text) (s : Session b) :
    finishWith replace document path options findings fixed s =
      finishWith replace' document path options findings fixed s := by
  unfold finishWith
  split
  · rfl
  have hblocks : (match fixed with
      | some repaired => extract repaired
      | none => extract document) = extract (fixed.getD document) := by
    cases fixed <;> rfl
  dsimp only
  rw [hblocks]
  refine bind_congr_of_ok fun _ t _ => bind_congr_of_ok fun rendered t' hrendered => ?_
  rw [h _ _ _ (matches_rendered hrendered)]

/-- `convertTextWith` replaces only blocks that match, so two ways to replace those give one
conversion. -/
theorem convertTextWith_congr
    (h : ∀ text blocks replacements, Matches text blocks replacements →
      replace text blocks replacements = replace' text blocks replacements)
    (document : Text) (path : Path) (options : ConversionOptions) (s : Session b) :
    convertTextWith replace document path options s =
      convertTextWith replace' document path options s := by
  unfold convertTextWith
  dsimp only
  rw [← checkedBlocks]
  split
  · rfl
  split
  · rename_i hany
    rw [h _ _ _ (matches_checkedBlocks hany)]
    exact bind_congr_of_ok fun fixed t _ => finishWith_congr h document path options _ fixed t
  · exact finishWith_congr h document path options _ none s

/-- **No conversion fails for its replacements**, by `convertText` or by `convertFile`, with any
options, session and files. The blocks it replaces, of the document and of the repaired document,
always match the text they are replaced in: with any other way to replace blocks that does the same
where they match, however it goes elsewhere, it is the same conversion. -/
theorem convert_replaces_matching (document : Text) (path : Path) (options : ConversionOptions)
    (s : Session b) :
    (∀ cause, (convertText document path options s).1 ≠ .error (.replacement cause)) ∧
    (∀ cause, (convertFile path options s).1 ≠ .error (.replacement cause)) ∧
    ∀ replace : Text → List Block → List Text → Except ReplacementError Text,
      (∀ text blocks replacements, Matches text blocks replacements →
        replace text blocks replacements = replaceBlocks text blocks replacements) →
      convertTextWith replace document path options s = convertText document path options s := by
  refine ⟨fun cause h => ?_, fun cause h => ?_, fun replace h => ?_⟩
  · exact convertText_ne_replacement (Prod.ext h rfl)
  · exact convertFile_ne_replacement (Prod.ext h rfl)
  · rw [convertTextWith_congr h, convertTextWith_replaceBlocks]

/-- Two diagrams, the first of which is repaired, with replacing that never looks at what it is
given. -/
theorem convert_two_diagrams_unchecked :
    convertTextWith (fun text blocks replacements => .ok (splice text blocks replacements))
        twoDiagrams "/w/a.md".toList twoDiagramsOptions twoDiagramsSession =
      convertText twoDiagrams "/w/a.md".toList twoDiagramsOptions twoDiagramsSession ∧
    ((convertText twoDiagrams "/w/a.md".toList twoDiagramsOptions twoDiagramsSession).1.toOption.bind
      ConvertedDocument.fixed).isSome = true := by
  obtain ⟨-, -, hsame⟩ := convert_replaces_matching twoDiagrams "/w/a.md".toList
    twoDiagramsOptions twoDiagramsSession
  exact ⟨hsame _ fun _ _ _ h => h.replaceBlocks.symm, by decide +kernel⟩

end Conversion
end MermaidPress
