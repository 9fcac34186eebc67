/-
Converting what a conversion gives. The document that the repairs leave, converted without them,
fares as the original does with them, call for call. And the document that a conversion gives has
no diagrams left, so it is not converted again, as long as no path brings ticks into it.
-/
import MermaidPress.Proofs.Convert.Converting
import MermaidPress.Proofs.Document.Rescanning
import MermaidPress.Proofs.Path.Characters

namespace MermaidPress

open Text Document

/-- What a conversion is for: the converted document and its images. -/
def ConvertedDocument.outcome (converted : ConvertedDocument) : Option Text × List Path :=
  (converted.content, converted.images)

namespace Conversion

open Session

variable {b : Backend}

/-! ## The repaired document -/

theorem fixedDocument?_of_not_autoFix {options : ConversionOptions} (h : options.autoFix = false)
    (document : Text) : fixedDocument? options document = none := by
  simp [fixedDocument?, h]

theorem extract_fixedDocument_ne_nil (options : ConversionOptions) {document : Text}
    (hne : extract document ≠ []) :
    extract ((fixedDocument? options document).getD document) ≠ [] := by
  unfold fixedDocument?
  dsimp only
  split
  · have hrepaired : (extract document).map Block.repaired =
        (extract document).zipWith Block.withContent
          ((extract document).map Block.repairedContent) := by
      rw [List.zipWith_map_right, List.zipWith_self]
      rfl
    rw [Option.getD_some, hrepaired]
    exact extract_splice_withContent_ne_nil hne (by simp)
  · exact hne

/-- What is rendered, and where to, follows from the render options and the output directory. -/
theorem renderBlocks_congr {options options' : ConversionOptions}
    (hdirectory : options.outputDirectory = options'.outputDirectory)
    (hspec : options.renderSpec = options'.renderSpec) (path : Path) (index : Nat)
    (blocks : List Block) :
    (renderBlocks options path index blocks : Conversion b (List Rendered)) =
      renderBlocks options' path index blocks := by
  have hformat : options.format = options'.format := congrArg RenderSpec.format hspec
  induction blocks generalizing index with
  | nil => rfl
  | cons block blocks ih => rw [renderBlocks, renderBlocks, hdirectory, hspec, hformat, ih]

theorem renderDocument_congr {options options' : ConversionOptions}
    (hdirectory : options.outputDirectory = options'.outputDirectory)
    (hspec : options.renderSpec = options'.renderSpec) (path : Path) (source : Text) :
    (renderDocument options path source : Conversion b (Text × List Path)) =
      renderDocument options' path source := by
  unfold renderDocument
  rw [hdirectory, renderBlocks_congr hdirectory hspec]

/-- **The repairs of a conversion may as well be made before it.** The `fixedDocument?` is the one
that a check with repairs reports, and so does the conversion, if it succeeds. Converting it without
repairs ends in the same session, so with the same calls and the same files, and in the same failure
or with the same content and the same images. -/
theorem convertText_fixedDocument {document : Text} (hne : extract document ≠ []) (path : Path)
    (options : ConversionOptions) (verbose : Bool) (s : Session b) :
    let repairing := { options with autoFix := true, validateOnly := false }
    let plain := { options with autoFix := false, validateOnly := false, verbose }
    let fixed := fixedDocument? repairing document
    let source := fixed.getD document
    extract source ≠ [] ∧
      (∃ checked, convertText document path { repairing with validateOnly := true } s =
        (.ok checked, s) ∧ checked.fixed = fixed) ∧
      (∀ converted s', convertText document path repairing s = (.ok converted, s') →
        converted.fixed = fixed) ∧
      (convertText document path repairing s).2 = (convertText source path plain s).2 ∧
      (convertText document path repairing s).1.map ConvertedDocument.outcome =
        (convertText source path plain s).1.map ConvertedDocument.outcome := by
  intro repairing plain fixed source
  have hsource : extract source ≠ [] := extract_fixedDocument_ne_nil repairing hne
  have hrepairing : (convertText document path repairing : Conversion b ConvertedDocument) =
      renderDocument repairing path source >>= fun rendered =>
        pure (convertedDocument repairing document (some rendered.1) rendered.2) :=
    convertText_eq hne path repairing
  have hplain : (convertText source path plain : Conversion b ConvertedDocument) =
      renderDocument repairing path source >>= fun rendered =>
        pure (convertedDocument plain source (some rendered.1) rendered.2) := by
    have hnone : fixedDocument? plain source = none := fixedDocument?_of_not_autoFix rfl source
    have hrender : (renderDocument plain path source : Conversion b (Text × List Path)) =
        renderDocument repairing path source :=
      renderDocument_congr (show plain.outputDirectory = repairing.outputDirectory from rfl)
        (show plain.renderSpec = repairing.renderSpec from rfl) path source
    rw [← hrender, convertText_eq hsource, hnone]
    rfl
  refine ⟨hsource, ⟨convertedDocument repairing document none [], ?_, rfl⟩, ?_⟩
  · rw [convertText_eq hne]
    rfl
  · rw [hrepairing, hplain]
    cases hrun : renderDocument repairing path source s with
    | mk result s' =>
      cases result with
      | error e =>
        rw [Interaction.bind_of_error hrun, Interaction.bind_of_error hrun]
        exact ⟨nofun, rfl, rfl⟩
      | ok outcome =>
        rw [Interaction.bind_of_ok hrun, Interaction.bind_of_ok hrun]
        refine ⟨fun converted s'' h => ?_, rfl, rfl⟩
        rw [← Except.ok.inj (Prod.mk.inj h).1]
        rfl

theorem convert_twoDiagrams_repaired :
    let repaired := "a\n```mermaid\nA --> B\n```\nb\n```mermaid\nC\n```\n".toList
    let plain := { twoDiagramsOptions with autoFix := false, verbose := true }
    extract twoDiagrams ≠ [] ∧
      (convertText twoDiagrams "/w/a.md".toList twoDiagramsOptions twoDiagramsSession).2 =
        (convertText repaired "/w/a.md".toList plain twoDiagramsSession).2 ∧
      (convertText twoDiagrams "/w/a.md".toList twoDiagramsOptions
          twoDiagramsSession).1.map ConvertedDocument.outcome =
        (convertText repaired "/w/a.md".toList plain
          twoDiagramsSession).1.map ConvertedDocument.outcome := by
  intro repaired plain
  have hne : extract twoDiagrams ≠ [] := by decide +kernel
  have hsource : (fixedDocument? twoDiagramsOptions twoDiagrams).getD twoDiagrams = repaired := by
    decide +kernel
  obtain ⟨-, -, -, hsession, houtcome⟩ := convertText_fixedDocument hne "/w/a.md".toList
    twoDiagramsOptions true twoDiagramsSession
  rw [← hsource]
  exact ⟨hne, hsession, houtcome⟩

/-! ## What a conversion that succeeds has done -/

theorem ofRendering_eq_ok {α : Type} {index : Nat} {work : Rendering b α} {s s' : Session b} {a : α}
    (h : ofRendering index work s = (.ok a, s')) : work s = (.ok a, s') := by
  unfold ofRendering at h
  cases hwork : work s with
  | mk result t =>
    rw [hwork] at h
    cases result with
    | ok a =>
      obtain ⟨ha, rfl⟩ := Prod.mk.inj h
      rw [Except.ok.inj ha]
    | error e => cases h

theorem onFiles_eq_ok {path : Path} {run : FileSystem → FileSystem.Outcome} {s s' : Session b}
    {u : Unit} (h : onFiles path run s = (.ok u, s')) :
    ∃ files, run s.files = (.ok (), files) ∧ s' = { s with files } := by
  unfold onFiles at h
  cases hrun : run s.files with
  | mk result files =>
    rw [hrun] at h
    cases result with
    | ok u => exact ⟨files, rfl, (Prod.mk.inj h).2.symm⟩
    | error e => cases h

theorem renders_of_renderBlocks {options : ConversionOptions} {path : Path} {blocks : List Block}
    {index : Nat} {s s' : Session b} {rendered : List Rendered}
    (h : renderBlocks options path index blocks s = (.ok rendered, s')) :
    Renders options.renderSpec s (renderJobs options path index blocks) s' := by
  induction blocks generalizing index s rendered with
  | nil =>
    obtain rfl : s = s' := (Prod.mk.inj h).2
    exact .nil s
  | cons block blocks ih =>
    rw [renderBlocks] at h
    obtain ⟨_, t, hrender, hthen⟩ := Interaction.bind_eq_ok_iff.1 h
    obtain ⟨_, t', hcurrent, hthen'⟩ := Interaction.bind_eq_ok_iff.1 hthen
    obtain ⟨_, t'', hrest, hlast⟩ := Interaction.bind_eq_ok_iff.1 hthen'
    obtain rfl : t = t' := (Prod.mk.inj hcurrent).2
    obtain rfl : t'' = s' := (Prod.mk.inj hlast).2
    exact .cons (ofRendering_eq_ok hrender) (ih hrest)

/-- What `renderDocument` gives has a reference to its own image in the place of each block. -/
theorem renderDocument_eq_ok {options : ConversionOptions} {path : Path} {source content : Text}
    {images : List Path} {s s' : Session b}
    (h : renderDocument options path source s = (.ok (content, images), s')) :
    let numbers := List.range' 1 (extract source).length
    content = splice source (extract source)
        (numbers.map (options.referenceTo s.files.current path)) ∧
      images = numbers.map (options.imagePath path) := by
  have hrun := h
  unfold renderDocument at hrun
  obtain ⟨_, t, hdirectory, hthen⟩ := Interaction.bind_eq_ok_iff.1 hrun
  obtain ⟨_, t', hblocks, hthen'⟩ := Interaction.bind_eq_ok_iff.1 hthen
  obtain ⟨files, hfiles, rfl⟩ := onFiles_eq_ok hdirectory
  have hdone := renderDocument_of_renders hfiles (renders_of_renderBlocks hblocks)
  rw [h] at hdone
  exact Prod.mk.inj (Except.ok.inj (Prod.mk.inj hdone).1)

/-! ## The converted document -/

theorem isPlainChar_tick : Path.IsPlainChar '`' := ⟨by decide, by decide⟩

theorem tick_notMem_baseName {path : Path} (h : '`' ∉ path) : '`' ∉ baseName path := by
  unfold baseName
  cases hstem : Path.fileStem? path with
  | none => exact List.not_mem_nil
  | some stem => exact fun hmem => h (Path.mem_of_mem_fileStem? isPlainChar_tick hstem hmem)

theorem tick_notMem_imageFileName {base : Text} (h : '`' ∉ base) (index : Nat)
    (format : ImageFormat) : '`' ∉ imageFileName base index format.name := by
  unfold imageFileName
  rw [List.mem_append, List.mem_append, List.mem_append]
  rintro (((hmem | hmem) | hmem) | hmem)
  · exact h hmem
  · exact absurd hmem (by decide)
  · exact tick_notMem_digits index hmem
  · cases format <;> exact absurd hmem (by decide)

/-- Ticks come into a reference from the two paths alone: that of the document, and that of the
output directory. -/
theorem barsOpenings_referenceTo {options : ConversionOptions} {current path : Path}
    (hpath : '`' ∉ Path.absolute current path)
    (hdirectory : '`' ∉ Path.absolute current options.outputDirectory) (index : Nat) :
    BarsOpenings (options.referenceTo current path index) := by
  refine barsOpenings_imageReference (fun hmem => ?_) index
  have hplain := isPlainChar_tick
  have hname : '`' ∉ imageFileName (baseName path) index options.format.name :=
    tick_notMem_imageFileName (tick_notMem_baseName fun h =>
      hpath ((Path.mem_absolute_iff hplain current path).2 (.inl h))) index options.format
  rw [Path.mem_absolute_iff hplain] at hdirectory
  have hmem := Path.mem_of_mem_relativeReference hplain hmem
  rw [Path.mem_absolute_iff hplain, ConversionOptions.imagePath, Path.mem_join_iff hplain.stroke,
    Path.isAbsolute_join, Bool.or_eq_false_iff] at hmem
  rcases hmem with (hmem | ⟨-, hmem⟩) | ⟨⟨hrelative, -⟩, hmem⟩
  · exact hname hmem
  · exact hdirectory (.inl hmem)
  · exact hdirectory (.inr ⟨hrelative, hmem⟩)

theorem convertText_of_extract_eq_nil {document : Text} (h : extract document = []) (path : Path)
    (options : ConversionOptions) (s : Session b) :
    convertText document path options s = (.error .noDiagrams, s) := by
  unfold convertText
  rw [h]
  rfl

theorem extract_content_eq_nil {document content : Text} {path : Path} {options : ConversionOptions}
    {s s' : Session b} {converted : ConvertedDocument}
    (hpath : '`' ∉ Path.absolute s.files.current path)
    (hdirectory : '`' ∉ Path.absolute s.files.current options.outputDirectory)
    (h : convertText document path options s = (.ok converted, s'))
    (hcontent : converted.content = some content) : extract content = [] := by
  by_cases hne : extract document = []
  · rw [convertText_of_extract_eq_nil hne] at h
    cases h
  rw [convertText_eq hne] at h
  split at h
  · obtain rfl := Except.ok.inj (Prod.mk.inj h).1
    cases hcontent
  · obtain ⟨⟨text, images⟩, t, hrender, hlast⟩ := Interaction.bind_eq_ok_iff.1 h
    obtain rfl := Except.ok.inj (Prod.mk.inj hlast).1
    obtain rfl : text = content := Option.some.inj hcontent
    rw [(renderDocument_eq_ok hrender).1]
    refine extract_splice_eq_nil (by simp) fun t hmem => ?_
    obtain ⟨index, -, rfl⟩ := List.mem_map.1 hmem
    exact barsOpenings_referenceTo hpath hdirectory index

theorem session_of_readDocument {path : Path} {document : Text} {s t : Session b}
    (h : readDocument path s = (.ok document, t)) : s = t := by
  unfold readDocument at h
  split at h
  · exact (Prod.mk.inj h).2
  · cases h

theorem readDocument_of_writeDocument {path output : Path} {text? : Option Text} {s s' : Session b}
    (h : writeDocument path text? s = (.ok (some output), s')) :
    ∃ text, text? = some text ∧ output = path ∧ readDocument path s' = (.ok text, s') := by
  cases text? with
  | none => cases h
  | some text =>
    obtain ⟨_, t, hwrite, hlast⟩ := Interaction.bind_eq_ok_iff.1 h
    obtain ⟨files, hfiles, rfl⟩ := onFiles_eq_ok hwrite
    obtain ⟨houtput, rfl⟩ := Prod.mk.inj hlast
    have hwritten : s.files.writeText path text = .ok files := by
      cases hresult : s.files.writeText path text with
      | ok written =>
        rw [hresult] at hfiles
        rw [(Prod.mk.inj hfiles).2]
      | error e =>
        rw [hresult] at hfiles
        cases hfiles
    refine ⟨text, rfl, (Option.some.inj (Except.ok.inj houtput)).symm, ?_⟩
    unfold readDocument
    rw [FileSystem.readText_of_writeText hwritten]

/-- **A conversion leaves no diagram behind.** References to paths without ticks, put in the place
of a document's blocks, leave a document in which `extract` finds nothing. So what a conversion
gives is not converted again, from no path, with no options and by no session; and neither is the
file that it wrote, as long as the paths of the document and of the output directory, made absolute,
have no ticks. -/
theorem no_diagrams_after_conversion :
    (∀ (source : Text) (paths : List Path), paths.length = (extract source).length →
      (∀ path ∈ paths, '`' ∉ path) →
      ∃ content, replaceBlocks source (extract source)
          ((paths.zipIdx 1).map fun (path, index) => imageReference index path) = .ok content ∧
        extract content = []) ∧
    ∀ {b : Backend} (s s' : Session b) (path : Path) (options : ConversionOptions),
      '`' ∉ Path.absolute s.files.current path →
      '`' ∉ Path.absolute s.files.current options.outputDirectory →
      (∀ document converted content,
        convertText document path options s = (.ok converted, s') →
        converted.content = some content →
        ∀ {b' : Backend} (t : Session b') (path' : Path) (options' : ConversionOptions),
          convertText content path' options' t = (.error .noDiagrams, t)) ∧
      ∀ result output, convertFile path options s = (.ok result, s') →
        result.outputFile = some output →
        ∀ options', convertFile output options' s' = (.error .noDiagrams, s') := by
  refine ⟨fun source paths hlen hpaths => ?_, fun s s' path options hpath hdirectory =>
    ⟨fun document converted content h hcontent b' t path' options' =>
      convertText_of_extract_eq_nil (extract_content_eq_nil hpath hdirectory h hcontent) _ _ _,
    fun result output h houtput options' => ?_⟩⟩
  · have hlen : (extract source).length =
        ((paths.zipIdx 1).map fun (path, index) => imageReference index path).length := by
      simp [hlen]
    refine ⟨_, replaceBlocks_extract hlen, extract_splice_eq_nil hlen fun t hmem => ?_⟩
    obtain ⟨⟨path, index⟩, hpair, rfl⟩ := List.mem_map.1 hmem
    exact barsOpenings_imageReference (hpaths path (List.fst_mem_of_mem_zipIdx hpair)) index
  · obtain ⟨document, t, hread, hthen⟩ := Interaction.bind_eq_ok_iff.1 h
    obtain ⟨converted, t', htext, hthen'⟩ := Interaction.bind_eq_ok_iff.1 hthen
    obtain ⟨fixedFile, u, hfixed, hthen''⟩ := Interaction.bind_eq_ok_iff.1 hthen'
    obtain ⟨outputFile, u', hwrite, hlast⟩ := Interaction.bind_eq_ok_iff.1 hthen''
    obtain rfl := session_of_readDocument hread
    obtain ⟨hresult, rfl⟩ := Prod.mk.inj hlast
    rw [← Except.ok.inj hresult] at houtput
    obtain rfl : outputFile = some output := houtput
    obtain ⟨content, hcontent, rfl, hagain⟩ := readDocument_of_writeDocument hwrite
    have hnone := extract_content_eq_nil hpath hdirectory htext hcontent
    exact (Interaction.bind_of_ok hagain).trans
      (Interaction.bind_of_error (convertText_of_extract_eq_nil hnone _ options' _))

theorem exists_eq_ok_of_toOption {ε α β σ : Type} {run : Except ε α × σ} {f : α → Option β} {y : β}
    (h : run.1.toOption.bind f = some y) : ∃ a s', run = (.ok a, s') ∧ f a = some y := by
  obtain ⟨a, hok, hf⟩ := exists_of_toOption_bind h
  exact ⟨a, run.2, Prod.ext hok rfl, hf⟩

theorem no_diagrams_after_two :
    (∃ content, replaceBlocks twoDiagrams (extract twoDiagrams)
        [imageReference 1 "i/a.png".toList, imageReference 2 "b".toList] = .ok content ∧
      extract content = []) ∧
    (∃ converted content s',
      convertText twoDiagrams "/w/a.md".toList twoDiagramsOptions twoDiagramsSession =
        (.ok converted, s') ∧ converted.content = some content ∧
      convertText content "/w/b.md".toList {} twoDiagramsSession =
        (.error .noDiagrams, twoDiagramsSession)) ∧
    ∃ result s', convertFile "/w/a.md".toList twoDiagramsOptions twoDiagramsSession =
        (.ok result, s') ∧ result.outputFile = some "/w/a-converted.md".toList ∧
      convertFile "/w/a-converted.md".toList twoDiagramsOptions s' = (.error .noDiagrams, s') := by
  obtain ⟨hreferences, hconversion⟩ := no_diagrams_after_conversion
  obtain ⟨content, hcontent⟩ := hreferences twoDiagrams ["i/a.png".toList, "b".toList]
    (by decide +kernel) (by decide +kernel)
  have hpath : '`' ∉ Path.absolute twoDiagramsSession.files.current "/w/a.md".toList := by
    decide +kernel
  have hdirectory : '`' ∉
      Path.absolute twoDiagramsSession.files.current twoDiagramsOptions.outputDirectory := by
    decide +kernel
  refine ⟨⟨content, hcontent⟩, ?_, ?_⟩
  · have hrun : ((convertText twoDiagrams "/w/a.md".toList twoDiagramsOptions
        twoDiagramsSession).1.toOption.bind ConvertedDocument.content).isSome := by decide +kernel
    obtain ⟨content, hsome⟩ := Option.isSome_iff_exists.1 hrun
    obtain ⟨converted, s', htext, hconverted⟩ := exists_eq_ok_of_toOption hsome
    obtain ⟨hagain, -⟩ := hconversion twoDiagramsSession s' _ _ hpath hdirectory
    exact ⟨converted, content, s', htext, hconverted, hagain _ _ _ htext hconverted _ _ _⟩
  · have hrun : ((convertFile "/w/a.md".toList twoDiagramsOptions
        twoDiagramsSession).1.toOption.bind ConversionResult.outputFile) =
          some "/w/a-converted.md".toList := by decide +kernel
    obtain ⟨result, s', hfile, houtput⟩ := exists_eq_ok_of_toOption hrun
    obtain ⟨-, hagain⟩ := hconversion twoDiagramsSession s' _ _ hpath hdirectory
    exact ⟨result, s', hfile, houtput, hagain _ _ hfile houtput _⟩

end Conversion
end MermaidPress
