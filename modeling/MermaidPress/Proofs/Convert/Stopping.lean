/-
A conversion that stops. The first failure ends it: a render that fails is the last one, those
before it have succeeded and left their images, and the documents beside the input are as they were.
Where the output directory cannot be made, no render is begun and nothing is asked of a browser.
-/
import MermaidPress.Backend.Scripted
import MermaidPress.Proofs.Convert.Effects

namespace MermaidPress

open Interaction Document FileSystem

variable {b : Backend} {s s' t : Session b}

/-! ## The images of renders in a row -/

/-- Renders in a row that took these pictures, each of which was captured and written. -/
inductive Session.Pictures (spec : RenderSpec) :
    Session b → List (RenderJob × ByteArray) → Session b → Prop
  | nil (s : Session b) : Pictures spec s [] s
  | cons {s s' s'' : Session b} {job : RenderJob} {image : ByteArray}
      {pictures : List (RenderJob × ByteArray)} :
      render job.source job.output spec s = (.ok (), s') → Captures s job.source spec image →
      s.files.writeBytes job.output image = .ok s'.files → Pictures spec s' pictures s'' →
      Pictures spec s ((job, image) :: pictures) s''

theorem Session.Pictures.renders {spec : RenderSpec} {pictures : List (RenderJob × ByteArray)}
    (h : Session.Pictures spec s pictures t) :
    Session.Renders spec s (pictures.map Prod.fst) t := by
  induction h with
  | nil s => exact .nil s
  | cons hrender _ _ _ ih => exact .cons hrender ih

namespace Conversion

open Session

theorem touches_of_renders {options : ConversionOptions} {path : Path} {blocks : List Block}
    {index : Nat} (h : Renders options.renderSpec s (renderJobs options path index blocks) t) :
    Touches .none (imagePlaces options path (List.range' index blocks.length)) s.files t.files := by
  have htouches := within_touching_renderBlocks .none options path blocks index s
  rwa [renderBlocks_of_renders h] at htouches

theorem readBytes_imagePath {options : ConversionOptions} {path : Path} {index : Nat}
    {numbers : List Nat} {fs fs' : FileSystem} {image : ByteArray}
    (h : Touches .none (imagePlaces options path numbers) fs fs') (hindex : index ∉ numbers)
    (hread : fs.readBytes (options.imagePath path index) = .ok image) :
    fs'.readBytes (options.imagePath path index) = .ok image := by
  obtain ⟨location, hpath⟩ := exists_leadsTo_of_readBytes hread
  obtain ⟨out, -, hlocation⟩ := hpath.of_join (isName_imageFileName path index options.format)
  refine Changes.readBytes h hpath ?_ hread
  rintro ⟨out', -, name, hname, hlocation'⟩
  obtain ⟨other, hother, rfl⟩ := List.mem_map.1 hname
  have hlast := List.append_inj_right' (hlocation.symm.trans hlocation') rfl
  have hsame := imageFileName_injective (baseName path) options.format.name (List.singleton_inj.1 hlast)
  exact hindex (hsame ▸ hother)

/-- The pictures of a document's first blocks are all there in the end. -/
theorem readBytes_of_pictures {options : ConversionOptions} {path : Path} {blocks : List Block}
    {index : Nat} {pictures : List (RenderJob × ByteArray)}
    (h : Pictures options.renderSpec s pictures t)
    (hjobs : pictures.map Prod.fst = renderJobs options path index blocks) :
    ∀ picture ∈ pictures, t.files.readBytes picture.1.output = .ok picture.2 := by
  induction h generalizing index blocks with
  | nil => simp
  | @cons s s' t job image pictures hrender hcapture hwrite hrest ih =>
    cases blocks with
    | nil => simp [renderJobs] at hjobs
    | cons block blocks =>
      rw [renderJobs, List.zipIdx_cons, List.map_cons, List.map_cons] at hjobs
      obtain ⟨hjob, hothers⟩ := List.cons.inj hjobs
      have hjob : job = { source := block.content, output := options.imagePath path index } := hjob
      have hothers : pictures.map Prod.fst = renderJobs options path (index + 1) blocks := hothers
      have hlater := hrest.renders
      rw [hothers] at hlater
      rw [List.forall_mem_cons]
      refine ⟨?_, ih hothers⟩
      rw [hjob] at hwrite ⊢
      refine readBytes_imagePath (touches_of_renders hlater) (fun hmem => ?_)
        (readBytes_of_writeBytes hwrite)
      have := (List.mem_range'_1.1 hmem).1
      omega

/-! ## The render that fails -/

theorem ofRendering_eq_error {α : Type} {index : Nat} {work : Rendering b α} {e : ConvertError}
    (h : ofRendering index work s = (.error e, s')) :
    ∃ cause, e = .render index cause ∧ work s = (.error cause, s') := by
  unfold ofRendering at h
  cases hwork : work s with
  | mk result t =>
    rw [hwork] at h
    cases result with
    | ok a => cases h
    | error cause =>
      obtain ⟨he, rfl⟩ := Prod.mk.inj h
      exact ⟨cause, (Except.error.inj he).symm, rfl⟩

/-- **`renderBlocks` stops at the first block that fails**: those before it have been rendered, and
the session is as that render left it. -/
theorem renderBlocks_eq_error {options : ConversionOptions} {path : Path} {blocks : List Block}
    {index : Nat} {e : ConvertError} (h : renderBlocks options path index blocks s = (.error e, s')) :
    ∃ done block rest pictures t cause, blocks = done ++ block :: rest ∧
      e = .render (index + done.length) cause ∧
      pictures.map Prod.fst = renderJobs options path index done ∧
      Pictures options.renderSpec s pictures t ∧
      render block.content (options.imagePath path (index + done.length)) options.renderSpec t =
        (.error cause, s') := by
  induction blocks generalizing index s with
  | nil => cases h
  | cons block blocks ih =>
    unfold renderBlocks at h
    rcases bind_eq_error_iff.1 h with hfirst | ⟨u, t, hfirst, hthen⟩
    · obtain ⟨cause, rfl, hrender⟩ := ofRendering_eq_error hfirst
      exact ⟨[], block, blocks, [], s, cause, rfl, rfl, rfl, .nil s, hrender⟩
    · have hrender := ofRendering_eq_ok hfirst
      obtain ⟨image, hcapture, hwrite⟩ := render_eq_ok hrender
      rcases bind_eq_error_iff.1 hthen with hcurrent | ⟨current, t', hcurrent, hothers⟩
      · cases hcurrent
      obtain rfl : t = t' := (Prod.mk.inj hcurrent).2
      rcases bind_eq_error_iff.1 hothers with hothers | ⟨others, t', -, hlast⟩
      · obtain ⟨done, failing, rest, pictures, t', cause, rfl, rfl, hjobs, hpictures, hfailing⟩ :=
          ih hothers
        have hnumber : index + 1 + done.length = index + (block :: done).length := by
          rw [List.length_cons]
          omega
        rw [hnumber] at hfailing ⊢
        let job : RenderJob := { source := block.content, output := options.imagePath path index }
        refine ⟨block :: done, failing, rest, (job, image) :: pictures, t', cause, rfl, rfl, ?_,
          .cons hrender hcapture hwrite hpictures, hfailing⟩
        rw [List.map_cons, hjobs, renderJobs, renderJobs, List.zipIdx_cons, List.map_cons]
      · cases hlast

/-! ## The failure of a conversion -/

theorem onFiles_of_error {path : Path} {run : FileSystem → FileSystem.Outcome} {files : FileSystem}
    {cause : FileSystem.Error} (h : run s.files = (.error cause, files)) :
    onFiles path run s = (.error (.inaccessible path cause), { s with files }) := by
  unfold onFiles
  rw [h]
  rfl

theorem onFiles_eq_error {path : Path} {run : FileSystem → FileSystem.Outcome} {e : ConvertError}
    (h : onFiles path run s = (.error e, s')) : ∃ cause, e = .inaccessible path cause := by
  cases hrun : run s.files with
  | mk result files =>
    cases result with
    | ok u =>
      rw [onFiles_of_ok hrun] at h
      cases h
    | error cause =>
      rw [onFiles_of_error hrun] at h
      exact ⟨cause, (Except.error.inj (Prod.mk.inj h).1).symm⟩

theorem writeDocument_eq_error {path : Path} {text? : Option Text} {e : ConvertError}
    (h : writeDocument path text? s = (.error e, s')) : ∃ cause, e = .inaccessible path cause := by
  cases text? with
  | none => cases h
  | some text =>
    rcases bind_eq_error_iff.1 h with hwrite | ⟨_, _, -, hlast⟩
    · exact onFiles_eq_error hwrite
    · cases hlast

theorem ofReplacement_eq_error {result : Except ReplacementError Text} {e : ConvertError}
    (h : ofReplacement result s = (.error e, s')) : ∃ cause, e = .replacement cause := by
  cases result with
  | ok content => cases h
  | error cause => exact ⟨cause, (Except.error.inj (Prod.mk.inj h).1).symm⟩

/-- Where `renderDocument` fails in a render, the output directory has been made and its blocks were
being rendered. -/
theorem renderDocument_eq_error {options : ConversionOptions} {path : Path} {source : Text} {k : Nat}
    {cause : RenderError}
    (h : renderDocument options path source s = (.error (.render k cause), s')) :
    ∃ files, s.files.makeDirectories options.outputDirectory = (.ok (), files) ∧
      renderBlocks options path 1 (extract source) { s with files } =
        (.error (.render k cause), s') := by
  unfold renderDocument at h
  rcases bind_eq_error_iff.1 h with hdirectory | ⟨u, t, hdirectory, hrest⟩
  · obtain ⟨_, he⟩ := onFiles_eq_error hdirectory
    cases he
  obtain ⟨files, hfiles, rfl⟩ := onFiles_eq_ok hdirectory
  rcases bind_eq_error_iff.1 hrest with hblocks | ⟨rendered, t', -, hrest⟩
  · exact ⟨files, hfiles, hblocks⟩
  rcases bind_eq_error_iff.1 hrest with hreplacement | ⟨_, _, -, hlast⟩
  · obtain ⟨_, he⟩ := ofReplacement_eq_error hreplacement
    cases he
  · cases hlast

theorem renderDocument_of_convertRead {document : Text} {path : Path} {options : ConversionOptions}
    {k : Nat} {cause : RenderError}
    (h : convertRead document path options s = (.error (.render k cause), s')) :
    renderDocument options path ((fixedDocument? options document).getD document) s =
      (.error (.render k cause), s') := by
  unfold convertRead at h
  rcases bind_eq_error_iff.1 h with htext | ⟨converted, t, -, hrest⟩
  · by_cases hne : extract document = []
    · rw [convertText_of_extract_eq_nil hne] at htext
      cases htext
    rw [convertText_eq hne] at htext
    split at htext
    · cases htext
    rcases bind_eq_error_iff.1 htext with hrender | ⟨_, _, -, hlast⟩
    · exact hrender
    · cases hlast
  rcases bind_eq_error_iff.1 hrest with hfixed | ⟨_, t', -, hrest⟩
  · obtain ⟨_, he⟩ := writeDocument_eq_error hfixed
    cases he
  rcases bind_eq_error_iff.1 hrest with hconverted | ⟨_, _, -, hlast⟩
  · obtain ⟨_, he⟩ := writeDocument_eq_error hconverted
    cases he
  · cases hlast

/-- Where the output directory cannot be made, that is all that was tried. -/
theorem convertRead_of_makeDirectories_eq_error {document : Text} {options : ConversionOptions}
    {cause : FileSystem.Error} {files : FileSystem} (hne : extract document ≠ [])
    (hvalidate : options.validateOnly = false)
    (h : s.files.makeDirectories options.outputDirectory = (.error cause, files)) (path : Path) :
    convertRead document path options s =
      (.error (.inaccessible options.outputDirectory cause), { s with files }) := by
  unfold convertRead
  rw [convertText_eq hne, hvalidate]
  exact bind_of_error (bind_of_error (bind_of_error (onFiles_of_error h)))

/-- A document beside the input is none of the images, so what is made or rendered leaves it as it
is, unless its place is that of a directory to be made. -/
theorem find?_document {options : ConversionOptions} {path : Path} {numbers : List Nat}
    {fs fs' : FileSystem} (h : Touches (directoryPlaces options) (imagePlaces options path numbers) fs fs')
    {directory location : Location} (hlocation : location ∈ documentLocations path directory) :
    fs'.find? location = fs.find? location ∨
      fs.find? location = none ∧ fs'.find? location = some .directory ∧
        ∃ above ∈ Path.ancestors options.outputDirectory, fs'.LeadsInto above location := by
  obtain ⟨name, hname, rfl⟩ := List.mem_map.1 hlocation
  have hplace := h.place (directory ++ [name])
  have hwritten : ¬ (imagePlaces options path numbers).Has fs' (directory ++ [name]) := by
    rintro ⟨out, -, image, himage, heq⟩
    obtain ⟨index, -, rfl⟩ := List.mem_map.1 himage
    have hlast := List.singleton_inj.1 (List.append_inj_right' heq rfl)
    exact imageFileName_notMem_documentNames path index options.format.name (hlast ▸ hname)
  generalize fs.find? (directory ++ [name]) = before at hplace
  generalize fs'.find? (directory ++ [name]) = after at hplace
  cases hplace with
  | kept => exact .inl rfl
  | made hmade => exact .inr ⟨rfl, rfl, hmade⟩
  | written hhere => exact absurd hhere hwritten

/-- **`convertFile` stops at the first failure**, in a file system without links. Where the diagram
with some number is not rendered, it is one of the rendered document; those before it were rendered,
and their images are there as they were captured; its own render failed for the reason that is
given, and was the last thing that was done. The documents beside the input are as they were, unless
such a place became a directory, as the output directory or one above it. Where the output directory
cannot be made, nothing was asked of a browser. -/
theorem convertFile_stops (path : Path) (options : ConversionOptions) (s s' : Session b) :
    (∀ k cause, convertFile path options s = (.error (.render k cause), s') →
      ∃ document directory name, s.files.readText path = .ok document ∧
        s.files.LeadsTo path (directory ++ [name]) ∧
        let blocks := extract ((fixedDocument? options document).getD document)
        1 ≤ k ∧ k ≤ blocks.length ∧
        (∃ files pictures t block,
          s.files.makeDirectories options.outputDirectory = (.ok (), files) ∧
          pictures.map Prod.fst = renderJobs options path 1 (blocks.take (k - 1)) ∧
          Pictures options.renderSpec { s with files } pictures t ∧
          (∀ picture ∈ pictures, s'.files.readBytes picture.1.output = .ok picture.2) ∧
          blocks[k - 1]? = some block ∧
          render block.content (options.imagePath path k) options.renderSpec t =
            (.error cause, s')) ∧
        ∀ location ∈ documentLocations path directory,
          s'.files.find? location = s.files.find? location ∨
            s.files.find? location = none ∧ s'.files.find? location = some .directory ∧
              ∃ above ∈ Path.ancestors options.outputDirectory,
                s'.files.LeadsInto above location) ∧
    ∀ document cause files, s.files.readText path = .ok document → extract document ≠ [] →
      options.validateOnly = false →
      s.files.makeDirectories options.outputDirectory = (.error cause, files) →
      convertFile path options s =
        (.error (.inaccessible options.outputDirectory cause), { s with files }) := by
  refine ⟨fun k cause hfile => ?_, fun document cause files hread hne hvalidate hdirectory => ?_⟩
  · cases hread : s.files.readText path with
    | error cause =>
      rw [convertFile_of_unreadable hread] at hfile
      cases hfile
    | ok document =>
      rw [convertFile_of_readText hread] at hfile
      obtain ⟨bytes, hbytes⟩ := exists_readBytes_of_readText hread
      obtain ⟨location, hpath⟩ := exists_leadsTo_of_readBytes hbytes
      obtain ⟨directory, name, -, -, rfl⟩ := hpath.parent
      obtain ⟨files, hdirectory, hblocks⟩ :=
        renderDocument_eq_error (renderDocument_of_convertRead hfile)
      obtain ⟨done, block, rest, pictures, t, cause', hall, hrender, hjobs, hpictures, hfailing⟩ :=
        renderBlocks_eq_error hblocks
      obtain ⟨rfl, rfl⟩ := ConvertError.render.inj hrender
      have hdone : 1 + done.length - 1 = done.length := by omega
      have hfiles : s'.files = t.files := files_of_render_eq_error hfailing
      have htouches : Touches (directoryPlaces options)
          (imagePlaces options path (List.range' 1 done.length)) s.files s'.files := by
        have hmade := touches_makeDirectories (imagePlaces options path (List.range' 1 done.length))
          s.files options.outputDirectory
        rw [hdirectory] at hmade
        have hrenders := hpictures.renders
        rw [hjobs] at hrenders
        rw [hfiles]
        exact hmade.trans ((touches_of_renders hrenders).mono (fun _ _ => False.elim) fun _ _ h => h)
      refine ⟨document, directory, name, rfl, hpath, by omega, ?_, ?_, ?_⟩
      · rw [hall, List.length_append, List.length_cons]
        omega
      · refine ⟨files, pictures, t, block, hdirectory, ?_, hpictures, ?_, ?_, hfailing⟩
        · rw [hall, hdone, List.take_left, hjobs]
        · rw [hfiles]
          exact readBytes_of_pictures hpictures hjobs
        · rw [hall, hdone, List.getElem?_append_right (Nat.le_refl _), Nat.sub_self]
          rfl
      · exact fun location hlocation => find?_document htouches hlocation
  · rw [convertFile_of_readText hread]
    exact convertRead_of_makeDirectories_eq_error hne hvalidate hdirectory path

/-! ### A second diagram that fails -/

/-- A session over a scripted browser, with a document at `/w/a.md`. -/
def documentSession (tabs : List Scripted.TabScript) (document : Text) :
    Session Scripted.backend where
  machine := { script := { browsers := [{}], tabs } }
  files := {
    current := "/w".toList
    nodes := [(["w".toList], .directory),
      (["w".toList, "a.md".toList], .file (String.ofList document).toUTF8)] }

/-- A document with two diagrams, of which the page shows the first. -/
def stoppingDocument : Text := "```mermaid\nA\n```\n```mermaid\nB\n```\n".toList

def stoppingSession : Session Scripted.backend :=
  documentSession [{}, { elementMissing := true }] stoppingDocument

theorem convertFile_stops_at_second :
    let intoImages : ConversionOptions := { outputDirectory := "/w/i".toList }
    let intoFile : ConversionOptions := { outputDirectory := "/w/a.md/i".toList }
    (∃ cause s' image, convertFile "/w/a.md".toList intoImages stoppingSession =
        (.error (.render 2 cause), s') ∧
      s'.files.readBytes "/w/i/a-diagram-1.png".toList = .ok image) ∧
    convertFile "/w/a.md".toList intoFile stoppingSession =
      (.error (.inaccessible "/w/a.md/i".toList .notADirectory),
        { stoppingSession with
          files := (stoppingSession.files.makeDirectories "/w/a.md/i".toList).2 }) := by
  intro intoImages intoFile
  have hread : stoppingSession.files.readText "/w/a.md".toList = .ok stoppingDocument := by
    decide +kernel
  constructor
  · have hfile : convertFile "/w/a.md".toList intoImages stoppingSession =
        (.error (.render 2 .elementNotFound),
          (convertFile "/w/a.md".toList intoImages stoppingSession).2) :=
      Prod.ext (by decide +kernel) rfl
    obtain ⟨hstops, -⟩ := convertFile_stops "/w/a.md".toList intoImages stoppingSession
      (convertFile "/w/a.md".toList intoImages stoppingSession).2
    obtain ⟨document, _, _, hread', -, -, -, ⟨_, pictures, _, _, -, hjobs, -, himages, -⟩, -⟩ :=
      hstops 2 _ hfile
    obtain rfl : stoppingDocument = document := Except.ok.inj (hread.symm.trans hread')
    have hfirst : renderJobs intoImages "/w/a.md".toList 1
        ((extract ((fixedDocument? intoImages stoppingDocument).getD stoppingDocument)).take
          (2 - 1)) = [⟨"A".toList, "/w/i/a-diagram-1.png".toList⟩] := by decide +kernel
    rw [hfirst] at hjobs
    obtain ⟨⟨job, image⟩, rest, rfl, hjob, -⟩ := List.map_eq_cons_iff.1 hjobs
    obtain rfl : job = ⟨"A".toList, "/w/i/a-diagram-1.png".toList⟩ := hjob
    exact ⟨_, _, image, hfile, himages _ List.mem_cons_self⟩
  · obtain ⟨-, hdirectory⟩ :=
      convertFile_stops "/w/a.md".toList intoFile stoppingSession stoppingSession
    exact hdirectory stoppingDocument .notADirectory _ hread (by decide +kernel) rfl
      (Prod.ext (by decide +kernel) rfl)

/-- **A place beside the input is not safe from being made the output directory**: with that of
the converted document as its name, a directory is there although no diagram was rendered. -/
theorem directory_at_convertedPath :
    let options : ConversionOptions := { outputDirectory := "/w/a-converted.md".toList }
    let s := documentSession [{ elementMissing := true }] "```mermaid\nA\n```\n".toList
    let (result, s') := convertFile "/w/a.md".toList options s
    convertedPath "/w/a.md".toList = "/w/a-converted.md".toList ∧
      result = .error (.render 1 .elementNotFound) ∧
      s.files.find? ["w".toList, "a-converted.md".toList] = none ∧
      s'.files.find? ["w".toList, "a-converted.md".toList] = some .directory := by
  decide +kernel

end Conversion
end MermaidPress
