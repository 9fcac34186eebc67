/-
Outputs of different documents. A name that a conversion gives can be read back from its end: behind
the last point stands the format, or `md` for the two documents; behind the last hyphen before that
the number, or which of the two documents it is; and what is left in front is the document's own
name, whatever that looks like. So a path that is written for one document is none that is written
for a document of another name. The same is true of the places that the paths lead to, as the name
comes last there too.
-/
import MermaidPress.Proofs.Config.Soundness
import MermaidPress.Proofs.Convert.Effects

namespace MermaidPress

namespace Document

variable {base base' name : Text}

/-! ## Names read back -/

/-- A text is cut in one way at the last of its separators. -/
theorem eq_of_cut_last {c : Char} {front front' behind behind' : Text} (h : c ∉ behind)
    (h' : c ∉ behind') (heq : front ++ c :: behind = front' ++ c :: behind') :
    front = front' ∧ behind = behind' := by
  have hcut {front behind : Text} (h : c ∉ behind) :
      Text.upTo? c (front ++ c :: behind).reverse = some (behind.reverse, front.reverse) := by
    rw [List.reverse_append, List.reverse_cons, List.append_assoc]
    exact Text.upTo?_append (mt List.mem_reverse.1 h) front.reverse
  have hsame := (hcut h).symm.trans (heq ▸ hcut h')
  obtain ⟨hbehind, hfront⟩ := Prod.mk.inj (Option.some.inj hsame)
  exact ⟨List.reverse_inj.1 hfront, List.reverse_inj.1 hbehind⟩

/-- The name of what is written for a document, by what stands behind its last hyphen. -/
def taggedName (front tag extension : Text) : Text := front ++ '-' :: tag ++ '.' :: extension

/-- A `taggedName` is read back from its end. -/
theorem eq_of_taggedName_eq {front front' tag tag' extension extension' : Text} (htag : '-' ∉ tag)
    (htag' : '-' ∉ tag') (hextension : '.' ∉ extension) (hextension' : '.' ∉ extension')
    (h : taggedName front tag extension = taggedName front' tag' extension') :
    front = front' ∧ tag = tag' ∧ extension = extension' := by
  obtain ⟨hstem, rfl⟩ := eq_of_cut_last hextension hextension' h
  obtain ⟨rfl, rfl⟩ := eq_of_cut_last htag htag' hstem
  exact ⟨rfl, rfl, rfl⟩

theorem imageFileName_eq_taggedName (base : Text) (index : Nat) (extension : Text) :
    imageFileName base index extension =
      taggedName (base ++ "-diagram".toList) (digits index) extension := by
  simp [imageFileName, taggedName]

theorem hyphen_notMem_digits (n : Nat) : '-' ∉ digits n := fun hmem =>
  absurd (isDigit_of_mem_digits hmem) (by decide)

/-- **An `imageFileName` tells its document's name, its number and its format.** -/
theorem imageFileName_eq_iff {index index' : Nat} {format format' : ImageFormat} :
    imageFileName base index format.name = imageFileName base' index' format'.name ↔
      base = base' ∧ index = index' ∧ format = format' := by
  constructor
  · intro h
    rw [imageFileName_eq_taggedName, imageFileName_eq_taggedName] at h
    obtain ⟨hfront, hdigits, hname⟩ := eq_of_taggedName_eq (hyphen_notMem_digits index)
      (hyphen_notMem_digits index') (point_notMem_name format) (point_notMem_name format') h
    exact ⟨List.append_cancel_right hfront, digits_injective hdigits,
      ImageFormat.name_injective hname⟩
  · rintro ⟨rfl, rfl, rfl⟩
    rfl

/-- The names of what is written for a document with the base name `base`. -/
inductive IsOutputName (base : Text) : Text → Prop
  | image (index : Nat) (format : ImageFormat) :
      IsOutputName base (imageFileName base index format.name)
  | document {suffix : Text} (h : suffix = "fixed".toList ∨ suffix = "converted".toList) :
      IsOutputName base (base ++ '-' :: suffix ++ ".md".toList)

theorem documentName_eq_taggedName (base suffix : Text) :
    base ++ '-' :: suffix ++ ".md".toList = taggedName base suffix "md".toList := rfl

theorem format_name_ne_md (format : ImageFormat) : format.name ≠ "md".toList := by
  cases format <;> decide

theorem hyphen_notMem_suffix {suffix : Text}
    (h : suffix = "fixed".toList ∨ suffix = "converted".toList) : '-' ∉ suffix := by
  rcases h with rfl | rfl <;> decide

theorem imageFileName_ne_document {suffix : Text} (index : Nat) (format : ImageFormat)
    (h : suffix = "fixed".toList ∨ suffix = "converted".toList) :
    imageFileName base index format.name ≠ base' ++ '-' :: suffix ++ ".md".toList := by
  intro heq
  rw [imageFileName_eq_taggedName, documentName_eq_taggedName] at heq
  obtain ⟨-, -, hname⟩ := eq_of_taggedName_eq (hyphen_notMem_digits index) (hyphen_notMem_suffix h)
    (point_notMem_name format) (by decide) heq
  exact format_name_ne_md format hname

theorem IsOutputName.unique (h : IsOutputName base name) (h' : IsOutputName base' name) :
    base = base' := by
  cases h with
  | image index format =>
    generalize hname : imageFileName base index format.name = name at h'
    cases h' with
    | image index' format' => exact (imageFileName_eq_iff.1 hname).1
    | document hsuffix => exact absurd hname (imageFileName_ne_document index format hsuffix)
  | @document suffix hsuffix =>
    generalize hname : base ++ '-' :: suffix ++ ".md".toList = name at h'
    cases h' with
    | image index format => exact absurd hname.symm (imageFileName_ne_document index format hsuffix)
    | document hsuffix' =>
      exact (eq_of_taggedName_eq (hyphen_notMem_suffix hsuffix) (hyphen_notMem_suffix hsuffix')
        (by decide) (by decide) hname).1

/-! ## Paths -/

/-- The paths of what is written for a document, where the images go to `directory`. -/
inductive IsOutput (document directory : Path) : Path → Prop
  | image (index : Nat) (format : ImageFormat) :
      IsOutput document directory
        (Path.join directory (imageFileName (baseName document) index format.name))
  | fixed : IsOutput document directory (repairedPath document)
  | converted : IsOutput document directory (convertedPath document)

variable {document document' directory directory' output output' : Path}

theorem fileName?_join {name : Text} (h : Path.IsName name) (base : Path) :
    Path.fileName? (Path.join base name) = some name :=
  Path.fileName?_of_later (Path.later_join h base)

theorem IsOutput.exists_fileName? (h : IsOutput document directory output) :
    ∃ name, Path.fileName? output = some name ∧ IsOutputName (baseName document) name := by
  cases h with
  | image index format =>
    exact ⟨_, fileName?_join (isName_imageFileName document index format) directory,
      .image index format⟩
  | fixed =>
    exact ⟨_, fileName?_join (isName_siblingName document (by decide)) _, .document (.inl rfl)⟩
  | converted =>
    exact ⟨_, fileName?_join (isName_siblingName document (by decide)) _, .document (.inr rfl)⟩

/-- Documents of different names have no path in common, however the paths are spelled. -/
theorem IsOutput.components_ne (h : IsOutput document directory output)
    (h' : IsOutput document' directory' output') (hne : baseName document ≠ baseName document') :
    Path.components output ≠ Path.components output' := by
  intro hsame
  obtain ⟨name, hfile, hname⟩ := h.exists_fileName?
  obtain ⟨name', hfile', hname'⟩ := h'.exists_fileName?
  rw [Path.fileName?, hsame, ← Path.fileName?, hfile'] at hfile
  obtain rfl := Option.some.inj hfile
  exact hne (hname.unique hname')

end Document

/-! ## What conversions write -/

/-- The paths that a `ConversionResult` names. -/
def ConversionResult.outputs (result : ConversionResult) : List Path :=
  result.images ++ result.fixedFile.toList ++ result.outputFile.toList

/-- A file was written at a location: it is there afterwards, and was not there before as it is. -/
def FileSystem.Wrote (fs fs' : FileSystem) (location : Location) : Prop :=
  ∃ bytes, fs'.find? location = some (.file bytes) ∧ fs.find? location ≠ some (.file bytes)

namespace Conversion

open Document Interaction FileSystem

variable {b b' : Backend} {path : Path} {options : ConversionOptions} {s s' : Session b}

theorem isOutputName_of_writtenPlaces {document : Text} {fs : FileSystem} {location : Location}
    (h : (writtenPlaces options path document).Has fs location) :
    ∃ directory name, location = directory ++ [name] ∧ IsOutputName (baseName path) name := by
  rcases h with ⟨directory, -, name, hname, rfl⟩ | ⟨directory, -, name, hname, rfl⟩
  · refine ⟨directory, name, rfl, ?_⟩
    simp only [documentNames, List.mem_cons, List.not_mem_nil, or_false] at hname
    rcases hname with rfl | rfl
    · exact .document (.inl rfl)
    · exact .document (.inr rfl)
  · obtain ⟨index, -, rfl⟩ := List.mem_map.1 hname
    exact ⟨directory, _, rfl, .image index options.format⟩

/-- `convertFile` writes files under its document's name only, wherever it stops. -/
theorem isOutputName_of_wrote {location : Location}
    (h : s.files.Wrote (convertFile path options s).2.files location) :
    ∃ directory name, location = directory ++ [name] ∧ IsOutputName (baseName path) name := by
  obtain ⟨bytes, hafter, hbefore⟩ := h
  cases hread : s.files.readText path with
  | error cause =>
    rw [convertFile_of_unreadable hread] at hafter
    exact absurd hafter hbefore
  | ok document =>
    rw [convertFile_of_readText hread] at hafter
    have htouches := within_touching_convertRead document path options s
    have hplace := htouches.place location
    rw [hafter] at hplace
    generalize s.files.find? location = node at hplace hbefore
    cases hplace with
    | kept => exact absurd rfl hbefore
    | written hwritten => exact isOutputName_of_writtenPlaces hwritten

theorem isOutput_of_convertText {document : Text} {converted : ConvertedDocument}
    (h : convertText document path options s = (.ok converted, s')) :
    ∀ image ∈ converted.images, IsOutput path options.outputDirectory image := by
  by_cases hne : extract document = []
  · rw [convertText_of_extract_eq_nil hne] at h
    cases h
  rw [convertText_eq hne] at h
  split at h
  · obtain rfl := Except.ok.inj (Prod.mk.inj h).1
    exact fun image hmem => nomatch hmem
  · obtain ⟨⟨content, images⟩, t, hrender, hlast⟩ := bind_eq_ok_iff.1 h
    obtain rfl := Except.ok.inj (Prod.mk.inj hlast).1
    have himages : images = _ := (renderDocument_eq_ok hrender).2
    intro image hmem
    have hmem : image ∈ images := hmem
    rw [himages] at hmem
    obtain ⟨index, -, rfl⟩ := List.mem_map.1 hmem
    exact .image index options.format

theorem eq_of_writeDocument {text? : Option Text} {file? : Option Path} {file : Path}
    (h : writeDocument path text? s = (.ok file?, s')) (hfile : file? = some file) :
    file = path := by
  obtain ⟨-, -, heq, -⟩ := readDocument_of_writeDocument (hfile ▸ h)
  exact heq

theorem isOutput_of_convertFile {result : ConversionResult}
    (h : convertFile path options s = (.ok result, s')) :
    ∀ output ∈ result.outputs, IsOutput path options.outputDirectory output := by
  cases hread : s.files.readText path with
  | error cause =>
    rw [convertFile_of_unreadable hread] at h
    cases h
  | ok document =>
    rw [convertFile_of_readText hread] at h
    obtain ⟨converted, t, htext, hrest⟩ := bind_eq_ok_iff.1 h
    obtain ⟨fixedFile, t', hfixed, hrest⟩ := bind_eq_ok_iff.1 hrest
    obtain ⟨outputFile, t'', houtput, hlast⟩ := bind_eq_ok_iff.1 hrest
    obtain rfl := Except.ok.inj (Prod.mk.inj hlast).1
    intro output hmem
    simp only [ConversionResult.outputs, List.mem_append, Option.mem_toList] at hmem
    rcases hmem with (himage | hfile) | hfile
    · exact isOutput_of_convertText htext output himage
    · rw [eq_of_writeDocument hfixed hfile]
      exact .fixed
    · rw [eq_of_writeDocument houtput hfile]
      exact .converted

/-- **Outputs of different documents do not collide.** An `imageFileName` tells the name of its
document, its number and its format, for all names, also those that look like that of an image. So
no path that is written for one document is one for a document of another name, wherever the two are
and the images of each go, and also if one of the paths is spelled in another way. The results of
conversions name such paths only; and no place at which one conversion writes a file is one at which
the other does, however far both come. -/
theorem outputs_apart :
    (∀ (base base' : Text) (index index' : Nat) (format format' : ImageFormat),
      imageFileName base index format.name = imageFileName base' index' format'.name ↔
        base = base' ∧ index = index' ∧ format = format') ∧
    (∀ (b : Backend) (path : Path) (options : ConversionOptions) (s s' : Session b)
      (result : ConversionResult), convertFile path options s = (.ok result, s') →
        ∀ output ∈ result.outputs, IsOutput path options.outputDirectory output) ∧
    ∀ path path' : Path, baseName path ≠ baseName path' →
      (∀ directory directory' output output' : Path, IsOutput path directory output →
        IsOutput path' directory' output' → Path.components output ≠ Path.components output') ∧
      ∀ (b b' : Backend) (options options' : ConversionOptions) (s : Session b) (s' : Session b')
        (location : Location),
        ¬ (s.files.Wrote (convertFile path options s).2.files location ∧
          s'.files.Wrote (convertFile path' options' s').2.files location) := by
  refine ⟨fun base base' index index' format format' => imageFileName_eq_iff,
    fun b path options s s' result h => isOutput_of_convertFile h, fun path path' hne => ⟨?_, ?_⟩⟩
  · intro directory directory' output output' h h'
    exact h.components_ne h' hne
  · rintro b b' options options' s s' location ⟨h, h'⟩
    obtain ⟨directory, name, rfl, hname⟩ := isOutputName_of_wrote h
    obtain ⟨directory', name', hlocation, hname'⟩ := isOutputName_of_wrote h'
    obtain rfl := List.singleton_inj.1 (List.append_inj_right' hlocation rfl)
    exact hne (hname.unique hname')

/-- The document `a-diagram-1.md` has a name like that of an image of `a.md`, and their images go to
one directory; still the two have no output in common, and what is written for the one is not
written for the other. -/
theorem outputs_apart_of_lookalike :
    let path := "/w/a.md".toList
    let path' := "/w/a-diagram-1.md".toList
    baseName path ≠ baseName path' ∧
      (∃ result s', convertFile path twoDiagramsOptions twoDiagramsSession = (.ok result, s') ∧
        result.outputs = ["/w/i/a-diagram-1.png".toList, "/w/i/a-diagram-2.png".toList,
          "/w/a-fixed.md".toList, "/w/a-converted.md".toList] ∧
        ∀ output ∈ result.outputs, IsOutput path "/w/i".toList output) ∧
      (∀ (index : Nat) (format : ImageFormat),
        Path.components "/w/i/a-diagram-1.png".toList ≠ Path.components
          (Path.join "/w/i".toList (imageFileName (baseName path') index format.name))) ∧
      twoDiagramsSession.files.Wrote
          (convertFile path twoDiagramsOptions twoDiagramsSession).2.files
          ["w".toList, "a-converted.md".toList] ∧
      ∀ (options : ConversionOptions) (s : Session Dummy.backend),
        ¬ s.files.Wrote (convertFile path' options s).2.files
          ["w".toList, "a-converted.md".toList] := by
  intro path path'
  obtain ⟨-, hresults, hapart⟩ := outputs_apart
  have hne : baseName path ≠ baseName path' := by decide +kernel
  obtain ⟨hpaths, hplaces⟩ := hapart path path' hne
  have hrun : (convertFile path twoDiagramsOptions twoDiagramsSession).1.toOption.bind
      (some ∘ ConversionResult.outputs) = some ["/w/i/a-diagram-1.png".toList,
        "/w/i/a-diagram-2.png".toList, "/w/a-fixed.md".toList, "/w/a-converted.md".toList] := by
    decide +kernel
  obtain ⟨result, s', hfile, houtputs⟩ := exists_eq_ok_of_toOption hrun
  have hoption := hresults Dummy.backend path twoDiagramsOptions _ s' result hfile
  have houtputs : result.outputs = _ := Option.some.inj houtputs
  have hwrote : twoDiagramsSession.files.Wrote
      (convertFile path twoDiagramsOptions twoDiagramsSession).2.files
      ["w".toList, "a-converted.md".toList] := by
    refine ⟨("a\n![Mermaid Diagram 1](i/a-diagram-1.png)\n" ++
      "b\n![Mermaid Diagram 2](i/a-diagram-2.png)\n").toUTF8, ?_, ?_⟩ <;> decide +kernel
  refine ⟨hne, ⟨result, s', hfile, houtputs, hoption⟩, fun index format => ?_, hwrote,
    fun options s hother => ?_⟩
  · exact hpaths _ _ _ _ (hoption _ (houtputs ▸ List.mem_cons_self)) (.image index format)
  · exact hplaces Dummy.backend Dummy.backend twoDiagramsOptions options twoDiagramsSession s _
      ⟨hwrote, hother⟩

end Conversion
end MermaidPress
