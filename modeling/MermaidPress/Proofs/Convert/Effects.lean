/-
What `convertFile` does to the files. Its parts touch places of three kinds: the output directory
and what is missing above it, the images in that directory, and the two documents beside the input.
That holds however a part ends, and so it holds of the whole, wherever that stops. The images and
documents have names that differ from each other and from the input's, so the input is read
afterwards as before.
-/
import MermaidPress.Proofs.Convert.Reconverting
import MermaidPress.Proofs.Document.Names
import MermaidPress.Proofs.FileSystem.Changes
import MermaidPress.Proofs.Render.Ending

namespace MermaidPress

open Interaction Document FileSystem

variable {b : Backend}

/-- The files after some work come from those before by what may be `made` and what may be
`written`. -/
def Session.Touching (made written : Places) (s s' : Session b) : Prop :=
  Touches made written s.files s'.files

namespace Conversion

open Session (Touching)

variable {made made' written written' : Places} {ε α β : Type}

theorem within_touching_mono {work : Interaction b ε α}
    (hmade : ∀ fs location, made.Has fs location → made'.Has fs location)
    (hwritten : ∀ fs location, written.Has fs location → written'.Has fs location)
    (h : Within (Touching made written) work) : Within (Touching made' written') work :=
  fun s => (h s).mono hmade hwritten

theorem within_touching_settled (result : Except ε α) :
    Within (Touching (b := b) made written) (Session.settled result) :=
  fun s => .refl _ _ s.files

/-! ## Images -/

/-- `render` touches its image alone. -/
theorem within_touching_render (made : Places) (source : Text) (base : Path) {name : Text}
    (hname : Path.IsName name) (spec : RenderSpec) :
    Within (Touching (b := b) made (.inside base [name]))
      (Session.render source (Path.join base name) spec) := fun s => by
  cases hrender : Session.render source (Path.join base name) spec s with
  | mk result t =>
    cases result with
    | ok u =>
      obtain ⟨image, -, hwrite⟩ := Session.render_eq_ok hrender
      exact touches_writeBytes made hname hwrite
    | error e =>
      have hfiles : t.files = s.files := Session.files_of_render_eq_error hrender
      show Touches _ _ s.files t.files
      rw [hfiles]
      exact .refl _ _ _

theorem inside_subset {base : Path} {names names' : List Text} (h : names ⊆ names')
    (fs : FileSystem) (location : Location) (hhas : (Places.inside base names).Has fs location) :
    (Places.inside base names').Has fs location := by
  obtain ⟨directory, hdirectory, name, hmem, hlocation⟩ := hhas
  exact ⟨directory, hdirectory, name, h hmem, hlocation⟩

/-- The places of the images with these numbers. -/
def imagePlaces (options : ConversionOptions) (path : Path) (numbers : List Nat) : Places :=
  .inside options.outputDirectory (imageNames path options.format numbers)

/-- `renderBlocks` touches the images of its blocks alone, also where it stops at one. -/
theorem within_touching_renderBlocks (made : Places) (options : ConversionOptions) (path : Path)
    (blocks : List Block) (index : Nat) :
    Within (Touching (b := b) made (imagePlaces options path (List.range' index blocks.length)))
      (renderBlocks options path index blocks) := by
  induction blocks generalizing index with
  | nil => exact within_touching_settled (.ok [])
  | cons block blocks ih =>
    have hnumbers : List.range' index (block :: blocks).length =
        index :: List.range' (index + 1) blocks.length := by
      rw [List.length_cons, List.range'_succ]
    have hname := isName_imageFileName path index options.format
    have hfirst : [imageFileName (baseName path) index options.format.name] ⊆
        imageNames path options.format (List.range' index (block :: blocks).length) := by
      rw [hnumbers]
      exact List.cons_subset_cons _ (List.nil_subset _)
    have hothers : imageNames path options.format (List.range' (index + 1) blocks.length) ⊆
        imageNames path options.format (List.range' index (block :: blocks).length) := by
      rw [hnumbers]
      exact List.subset_cons_self _ _
    unfold renderBlocks
    refine .bind Touches.trans (fun s => ?_) fun _ => ?_
    · show Touches _ _ s.files _
      rw [snd_ofRendering]
      exact (within_touching_render made block.content options.outputDirectory hname
        options.renderSpec s).mono (fun _ _ h => h) (inside_subset hfirst)
    refine .bind Touches.trans (fun s => .refl _ _ s.files) fun current => ?_
    refine .bind Touches.trans ?_ fun others => within_touching_settled (.ok _)
    exact within_touching_mono (fun _ _ h => h) (inside_subset hothers) (ih (index + 1))

/-! ## Directories -/

/-- The places of the output directory and of what is above it. -/
def directoryPlaces (options : ConversionOptions) : Places :=
  .directories (Path.ancestors options.outputDirectory)

theorem within_touching_renderDocument (options : ConversionOptions) (path : Path) (source : Text) :
    Within (Touching (b := b) (directoryPlaces options)
        (imagePlaces options path (List.range' 1 (extract source).length)))
      (renderDocument options path source) := by
  unfold renderDocument
  refine .bind Touches.trans (fun s => ?_) fun _ => ?_
  · exact touches_makeDirectories _ s.files options.outputDirectory
  refine .bind Touches.trans (within_touching_renderBlocks _ options path _ 1) fun rendered => ?_
  exact .bind Touches.trans (within_touching_settled _) fun content =>
    within_touching_settled (.ok _)

theorem within_touching_convertText (document : Text) (path : Path) (options : ConversionOptions) :
    Within (Touching (b := b) (directoryPlaces options)
        (imagePlaces options path
          (List.range' 1 (extract ((fixedDocument? options document).getD document)).length)))
      (convertText document path options) := by
  by_cases hne : extract document = []
  · intro s
    rw [convertText_of_extract_eq_nil hne]
    exact .refl _ _ _
  · rw [convertText_eq hne]
    split
    · exact within_touching_settled (.ok _)
    · exact .bind Touches.trans (within_touching_renderDocument options path _) fun rendered =>
        within_touching_settled (.ok _)

/-! ## Documents -/

/-- The places of the documents beside the input. -/
def documentPlaces (path : Path) : Places :=
  .inside ((Path.parent? path).getD []) (documentNames path)

theorem within_touching_writeDocument (made : Places) {base : Path} {name : Text}
    (hname : Path.IsName name) (text? : Option Text) :
    Within (Touching (b := b) made (.inside base [name]))
      (writeDocument (Path.join base name) text?) := by
  cases text? with
  | none => exact within_touching_settled (.ok none)
  | some text =>
    refine .bind Touches.trans (fun s => ?_) fun _ => within_touching_settled (.ok _)
    show Touches _ _ s.files (s.files.whole (s.files.writeText (Path.join base name) text)).2
    cases hwrite : s.files.writeText (Path.join base name) text with
    | ok files => exact touches_writeBytes made hname hwrite
    | error e => exact .refl _ _ s.files

theorem within_touching_document (made : Places) (path : Path) {name : Text}
    (hname : name ∈ documentNames path) (text? : Option Text) :
    Within (Touching (b := b) made (documentPlaces path))
      (writeDocument (Path.join ((Path.parent? path).getD []) name) text?) :=
  within_touching_mono (fun _ _ h => h) (inside_subset (by simpa using hname))
    (within_touching_writeDocument made (isName_of_mem_documentNames hname) text?)

/-- What `convertFile` does with a document that it has read. -/
def convertRead (document : Text) (path : Path) (options : ConversionOptions) :
    Conversion b ConversionResult := do
  let converted ← convertText document path options
  let fixed := if options.validateOnly then none else converted.fixed
  let fixedFile ← writeDocument (repairedPath path) fixed
  let outputFile ← writeDocument (convertedPath path) converted.content
  pure {
    outputFile
    imageDirectory := options.outputDirectory
    convertedCount := converted.images.length
    fixedFile
    findings := converted.findings
    images := converted.images }

theorem convertFile_of_readText {path : Path} {document : Text} {s : Session b}
    (h : s.files.readText path = .ok document) (options : ConversionOptions) :
    convertFile path options s = convertRead document path options s := by
  have hread : readDocument path s = (.ok document, s) := by
    unfold readDocument
    rw [h]
  exact bind_of_ok hread

theorem convertFile_of_unreadable {path : Path} {cause : FileSystem.Error} {s : Session b}
    (h : s.files.readText path = .error cause) (options : ConversionOptions) :
    convertFile path options s = (.error (.inaccessible path cause), s) := by
  have hread : readDocument path s = (.error (.inaccessible path cause), s) := by
    unfold readDocument
    rw [h]
  exact bind_of_error hread

/-- The `imagePlaces` of a document and its `documentPlaces`. -/
def writtenPlaces (options : ConversionOptions) (path : Path) (document : Text) : Places :=
  .or (documentPlaces path)
    (imagePlaces options path
      (List.range' 1 (extract ((fixedDocument? options document).getD document)).length))

/-- **A conversion touches its `directoryPlaces` and its `writtenPlaces` alone**, wherever it
stops. -/
theorem within_touching_convertRead (document : Text) (path : Path) (options : ConversionOptions) :
    Within (Touching (b := b) (directoryPlaces options) (writtenPlaces options path document))
      (convertRead document path options) := by
  have hdocument (name : Text) (hname : name ∈ documentNames path) (text? : Option Text) :
      Within (Touching (b := b) (directoryPlaces options) (writtenPlaces options path document))
        (writeDocument (Path.join ((Path.parent? path).getD []) name) text?) :=
    within_touching_mono (fun _ _ h => h) (fun _ _ => Or.inl)
      (within_touching_document _ path hname text?)
  unfold convertRead
  refine .bind Touches.trans ?_ fun converted => ?_
  · exact within_touching_mono (fun _ _ h => h) (fun _ _ => Or.inr)
      (within_touching_convertText document path options)
  have hfixed := hdocument (siblingName path "fixed".toList) List.mem_cons_self
  have hconverted := hdocument (siblingName path "converted".toList)
    (List.mem_cons_of_mem _ (List.mem_singleton_self _))
  refine .bind Touches.trans (hfixed _) fun fixedFile => ?_
  refine .bind Touches.trans (hconverted _) fun outputFile => ?_
  exact within_touching_settled (.ok _)

/-- Where diagrams are only checked, or there are none, nothing happens to the session. -/
theorem convertRead_of_idle {document : Text} {options : ConversionOptions}
    (h : options.validateOnly = true ∨ extract document = []) (path : Path) (s : Session b) :
    (convertRead document path options s).2 = s := by
  by_cases hne : extract document = []
  · unfold convertRead
    rw [bind_of_error (convertText_of_extract_eq_nil hne path options s)]
  · have hvalidate : options.validateOnly = true := h.resolve_right hne
    unfold convertRead
    rw [convertText_eq hne, hvalidate]
    rfl

/-! ## The whole conversion -/

/-- Where the `imageNames` are in a directory. -/
def imageLocations (path : Path) (format : ImageFormat) (numbers : List Nat) (out : Location) :
    List Location :=
  (imageNames path format numbers).map (out ++ [·])

/-- Where the `documentNames` are in a directory. -/
def documentLocations (path : Path) (directory : Location) : List Location :=
  (documentNames path).map (directory ++ [·])

/-- A document, its `imageLocations` and its `documentLocations` are all different. -/
theorem nodup_locations {path : Path} {name : Text} (hname : Path.fileName? path = some name)
    (format : ImageFormat) (count : Nat) (directory out : Location) :
    ((directory ++ [name]) :: (imageLocations path format (List.range' 1 count) out ++
      documentLocations path directory)).Nodup := by
  have hnames := nodup_names hname format (List.nodup_range' (s := 1) (n := count))
  have hlast : (((directory ++ [name]) :: (imageLocations path format (List.range' 1 count) out ++
      documentLocations path directory)).map List.getLast?) =
      (name :: (imageNames path format (List.range' 1 count) ++ documentNames path)).map some := by
    simp [imageLocations, documentLocations, Function.comp_def]
  refine List.Pairwise.of_map (S := (· ≠ ·)) List.getLast?
    (fun _ _ hne heq => hne (congrArg _ heq)) ?_
  rw [hlast]
  exact List.Pairwise.map some (fun _ _ hne heq => hne (Option.some.inj heq)) hnames

theorem mem_locations_of_written {options : ConversionOptions} {path : Path} {document : Text}
    {fs : FileSystem} {directory location : Location}
    (hparent : fs.LeadsInto ((Path.parent? path).getD []) directory)
    (h : (writtenPlaces options path document).Has fs location) :
    location ∈ documentLocations path directory ∨
      ∃ out, fs.LeadsInto options.outputDirectory out ∧
        location ∈ imageLocations path options.format
          (List.range' 1 (extract ((fixedDocument? options document).getD document)).length) out := by
  rcases h with ⟨other, hother, name, hname, rfl⟩ | ⟨out, hout, name, hname, rfl⟩
  · obtain rfl := hother.unique hparent
    exact .inl (List.mem_map.2 ⟨name, hname, rfl⟩)
  · exact .inr ⟨out, hout, List.mem_map.2 ⟨name, hname, rfl⟩⟩

/-- **What `convertFile` does to the files**, in a file system without links and wherever it stops.
A document that cannot be read leaves them as they are, and so does one that is only checked.
Otherwise directories are made, at most, where the output directory and what was missing above it
are, and files are written, at most, where the images of the rendered document are and where the two
documents beside the input are. All these are different places, and none is that of the input, which
reads as before. -/
theorem convertFile_effects (path : Path) (options : ConversionOptions) (s : Session b) :
    let (result, s') := convertFile path options s
    s'.files.readBytes path = s.files.readBytes path ∧
      match s.files.readText path with
      | .error cause => result = .error (.inaccessible path cause) ∧ s' = s
      | .ok document =>
        let count := (extract ((fixedDocument? options document).getD document)).length
        let images := imageLocations path options.format (List.range' 1 count)
        (options.validateOnly = true ∨ extract document = [] → s' = s) ∧
          ∃ directory name, s.files.LeadsTo path (directory ++ [name]) ∧
            Path.fileName? path = some name ∧
            (∀ out, ((directory ++ [name]) ::
              (images out ++ documentLocations path directory)).Nodup) ∧
            Changes
              (fun location => ∃ above ∈ Path.ancestors options.outputDirectory,
                s'.files.LeadsInto above location)
              (fun location => location ∈ documentLocations path directory ∨
                ∃ out, s'.files.LeadsInto options.outputDirectory out ∧ location ∈ images out)
              s.files s'.files := by
  cases hrun : convertFile path options s with
  | mk result s' =>
  dsimp only
  cases hread : s.files.readText path with
  | error cause =>
    rw [convertFile_of_unreadable hread] at hrun
    obtain ⟨rfl, rfl⟩ := Prod.mk.inj hrun
    exact ⟨rfl, rfl, rfl⟩
  | ok document =>
    rw [convertFile_of_readText hread] at hrun
    have htouches : Touches (directoryPlaces options) (writtenPlaces options path document)
        s.files s'.files := by
      have := within_touching_convertRead document path options s
      rwa [hrun] at this
    obtain ⟨bytes, hbytes⟩ := exists_readBytes_of_readText hread
    obtain ⟨location, hpath⟩ := exists_leadsTo_of_readBytes hbytes
    obtain ⟨directory, name, hname, hparent, rfl⟩ := hpath.parent
    have hparent' := hparent.mono htouches.keepsDirectories
    have hinput : ¬ (writtenPlaces options path document).Has s'.files (directory ++ [name]) := by
      intro hwritten
      let count := (extract ((fixedDocument? options document).getD document)).length
      have hapart (out : Location) :=
        (List.nodup_cons.1 (nodup_locations hname options.format count directory out)).1
      rcases mem_locations_of_written hparent' hwritten with hmem | ⟨out, -, hmem⟩
      · exact hapart [] (List.mem_append_right _ hmem)
      · exact hapart out (List.mem_append_left _ hmem)
    refine ⟨?_, fun hidle => ?_, directory, name, hpath, hname, ?_, ?_⟩
    · rw [hbytes]
      exact Changes.readBytes htouches hpath hinput hbytes
    · have := convertRead_of_idle hidle path s
      rwa [hrun] at this
    · exact nodup_locations hname options.format _ directory
    · exact Changes.mono (fun _ h => h) (fun _ => mem_locations_of_written hparent') htouches

end Conversion
end MermaidPress
