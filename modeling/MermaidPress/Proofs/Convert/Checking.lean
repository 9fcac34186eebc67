/-
Conversions that render nothing. A document without diagrams is refused, and one that is only to
be checked is answered from its text, both before a directory is made or a browser is needed. So
the session is left as it was: no call to a browser, no file. What a check finds depends on
the document and on whether it is repaired; where a conversion renders and checks as well, it
reports the same.
-/
import MermaidPress.Proofs.Convert.Effects

namespace MermaidPress.Conversion

open Interaction Document

variable {b : Backend}

/-- What `checkBlocks` finds in the diagrams of a document, and with `autoFix` repairs in them. -/
def findingsOf (autoFix : Bool) (document : Text) : List BlockFindings :=
  (checkBlocks autoFix 1 (extract document)).filterMap CheckedBlock.findings

theorem filterMap_findings_checkedBlocks {options : ConversionOptions}
    (h : options.checksSyntax = true) (document : Text) :
    (checkedBlocks options document).filterMap CheckedBlock.findings =
      findingsOf options.autoFix document := by
  rw [checkedBlocks, if_pos h]
  rfl

/-- What `convertText` gives is, images and references apart, what follows from the document. -/
theorem exists_convertedDocument {document : Text} {path : Path} {options : ConversionOptions}
    {s t : Session b} {converted : ConvertedDocument}
    (h : convertText document path options s = (.ok converted, t)) :
    ∃ content images, converted = convertedDocument options document content images := by
  by_cases hne : extract document = []
  · rw [convertText_of_extract_eq_nil hne] at h
    cases h
  rw [convertText_eq hne] at h
  split at h
  · exact ⟨_, _, (Except.ok.inj (Prod.mk.inj h).1).symm⟩
  · obtain ⟨_, _, -, hlast⟩ := bind_eq_ok_iff.1 h
    exact ⟨_, _, (Except.ok.inj (Prod.mk.inj hlast).1).symm⟩

theorem findings_of_convertText {document : Text} {path : Path} {options : ConversionOptions}
    {s t : Session b} {converted : ConvertedDocument}
    (h : convertText document path options s = (.ok converted, t)) :
    converted.findings = (checkedBlocks options document).filterMap CheckedBlock.findings := by
  obtain ⟨_, _, rfl⟩ := exists_convertedDocument h
  rfl

theorem findings_of_convertRead {document : Text} {path : Path} {options : ConversionOptions}
    {s t : Session b} {result : ConversionResult}
    (h : convertRead document path options s = (.ok result, t)) :
    result.findings = (checkedBlocks options document).filterMap CheckedBlock.findings := by
  unfold convertRead at h
  obtain ⟨converted, _, htext, hthen⟩ := bind_eq_ok_iff.1 h
  obtain ⟨_, _, -, hthen⟩ := bind_eq_ok_iff.1 hthen
  obtain ⟨_, _, -, hlast⟩ := bind_eq_ok_iff.1 hthen
  rw [← findings_of_convertText htext]
  obtain rfl := Except.ok.inj (Prod.mk.inj hlast).1
  rfl

theorem convertRead_of_validateOnly {document : Text} {options : ConversionOptions}
    (hne : extract document ≠ []) (hvalidate : options.validateOnly = true) (path : Path)
    (s : Session b) :
    convertRead document path options s =
      (.ok {
        outputFile := none
        imageDirectory := options.outputDirectory
        convertedCount := 0
        fixedFile := none
        findings := findingsOf options.autoFix document
        images := [] }, s) := by
  have hchecks : options.checksSyntax = true := by
    simp [ConversionOptions.checksSyntax, hvalidate]
  unfold convertRead
  rw [convertText_eq hne, hvalidate, ← filterMap_findings_checkedBlocks hchecks]
  rfl

theorem convertRead_of_extract_eq_nil {document : Text} (h : extract document = []) (path : Path)
    (options : ConversionOptions) (s : Session b) :
    convertRead document path options s = (.error .noDiagrams, s) := by
  unfold convertRead
  exact bind_of_error (convertText_of_extract_eq_nil h path options s)

/-- **What renders nothing leaves nothing.** `convertFile` refuses a document without diagrams, with
any options, and for one that is only checked gives a report without files and images; both leave
the session as it was, with its calls and its files. The report is that of every conversion of the
document that checks it with the same repairs, also of one that renders it, through whatever
session. -/
theorem convertFile_without_rendering {path : Path} {document : Text} {s : Session b}
    (hread : s.files.readText path = .ok document) (options : ConversionOptions) :
    (extract document = [] → convertFile path options s = (.error .noDiagrams, s)) ∧
    (extract document ≠ [] → options.validateOnly = true →
      convertFile path options s =
        (.ok {
          outputFile := none
          imageDirectory := options.outputDirectory
          convertedCount := 0
          fixedFile := none
          findings := findingsOf options.autoFix document
          images := [] }, s)) ∧
    ∀ {b' : Backend} (path' : Path) (rendering : ConversionOptions) (s' t : Session b')
      (result : ConversionResult), s'.files.readText path' = .ok document →
      rendering.autoFix = options.autoFix → rendering.checksSyntax = true →
      convertFile path' rendering s' = (.ok result, t) →
      result.findings = findingsOf options.autoFix document := by
  refine ⟨fun hnil => ?_, fun hne hvalidate => ?_, ?_⟩
  · rw [convertFile_of_readText hread]
    exact convertRead_of_extract_eq_nil hnil path options s
  · rw [convertFile_of_readText hread]
    exact convertRead_of_validateOnly hne hvalidate path s
  · intro b' path' rendering s' t result hread' hfix hchecks hrun
    rw [convertFile_of_readText hread'] at hrun
    rw [findings_of_convertRead hrun, filterMap_findings_checkedBlocks hchecks, hfix]

/-- Two diagrams that are only checked, and the same two rendered: one report, on the arrow of the
first. A file without diagrams lies beside them. -/
theorem convertFile_checks_two_diagrams :
    let checking := { twoDiagramsOptions with validateOnly := true }
    let rendering := { twoDiagramsOptions with verbose := true }
    let plain := { twoDiagramsSession with
      files := twoDiagramsSession.files.put ["w".toList, "b.md".toList] (.file "b".toUTF8) }
    convertFile "/w/b.md".toList rendering plain = (.error .noDiagrams, plain) ∧
      ∃ checked rendered t,
        convertFile "/w/a.md".toList checking twoDiagramsSession =
          (.ok checked, twoDiagramsSession) ∧
        convertFile "/w/a.md".toList rendering twoDiagramsSession = (.ok rendered, t) ∧
        rendered.convertedCount = 2 ∧ rendered.findings = checked.findings ∧
        checked.findings.map BlockFindings.index = [1] := by
  intro checking rendering plain
  have hread : twoDiagramsSession.files.readText "/w/a.md".toList = .ok twoDiagrams := by
    decide +kernel
  have hplain : plain.files.readText "/w/b.md".toList = .ok "b".toList := by decide +kernel
  obtain ⟨hrefused, -, -⟩ := convertFile_without_rendering hplain rendering
  obtain ⟨-, hchecked, hsame⟩ := convertFile_without_rendering hread checking
  have hcount : (convertFile "/w/a.md".toList rendering twoDiagramsSession).1.toOption.bind
      (some ∘ ConversionResult.convertedCount) = some 2 := by decide +kernel
  obtain ⟨result, t, hrun, htwo⟩ := exists_eq_ok_of_toOption hcount
  refine ⟨hrefused (by decide +kernel), _, result, t, hchecked (by decide +kernel) rfl, hrun,
    Option.some.inj htwo, hsame _ rendering twoDiagramsSession t result hread rfl rfl hrun, ?_⟩
  decide +kernel

end MermaidPress.Conversion
