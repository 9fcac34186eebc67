/-
The names that a document gives. Those of its images and of the two documents beside it begin
with the document's own name without extension, and go on with a hyphen. So they are names in any
directory; no two of them are the same, as the numbers of the images differ; and none is the
name of the document itself, which without its extension would have to be longer than it is.
-/
import MermaidPress.Document.Naming
import MermaidPress.Proofs.Path.Parent
import MermaidPress.Proofs.Text.Occurrence
import MermaidPress.Render.Spec

namespace MermaidPress.Document

open MermaidPress.Path (IsName componentOf?)

/-- The name of a document beside the one at a path. -/
def siblingName (path : Path) (suffix : Text) : Text :=
  baseName path ++ '-' :: suffix ++ ".md".toList

/-- The names of the images with these numbers. -/
def imageNames (path : Path) (format : ImageFormat) (numbers : List Nat) : List Text :=
  numbers.map fun index => imageFileName (baseName path) index format.name

/-- The names of the repaired and of the converted document, as `siblingName` makes them. -/
def documentNames (path : Path) : List Text :=
  [siblingName path "fixed".toList, siblingName path "converted".toList]

/-! ## Names in any directory -/

theorem isName_of_hyphen {t : Text} (hhyphen : '-' ∈ t) (hstroke : '/' ∉ t) : IsName t where
  component := by
    unfold componentOf?
    split
    · simp at hhyphen
    · simp at hhyphen
    · simp at hhyphen
    · rfl
  stroke := hstroke

theorem stroke_notMem_baseName (path : Path) : '/' ∉ baseName path := by
  unfold baseName Path.fileStem?
  cases hname : Path.fileName? path with
  | none => exact List.not_mem_nil
  | some name => exact fun hmem =>
      (Path.isName_of_fileName? hname).stroke (Path.mem_of_mem_splitExtension hmem)

theorem isDigit_of_mem_digits {c : Char} {n : Nat} (h : c ∈ digits n) : c.isDigit = true :=
  Nat.isDigit_of_mem_toDigits (by decide) (by decide) h

theorem isName_imageFileName (path : Path) (index : Nat) (format : ImageFormat) :
    IsName (imageFileName (baseName path) index format.name) := by
  unfold imageFileName
  refine isName_of_hyphen (by simp) fun hmem => ?_
  have hformat : '/' ∉ format.name := by cases format <;> decide
  have hdigits : '/' ∉ digits index := fun hmem => absurd (isDigit_of_mem_digits hmem) (by decide)
  simp [stroke_notMem_baseName, hformat, hdigits] at hmem

theorem isName_siblingName (path : Path) {suffix : Text} (h : '/' ∉ suffix) :
    IsName (siblingName path suffix) := by
  unfold siblingName
  refine isName_of_hyphen (by simp) fun hmem => ?_
  simp [stroke_notMem_baseName, h] at hmem

theorem isName_of_mem_documentNames {path : Path} {name : Text} (h : name ∈ documentNames path) :
    IsName name := by
  simp only [documentNames, List.mem_cons, List.not_mem_nil, or_false] at h
  rcases h with rfl | rfl <;> exact isName_siblingName path (by decide)

/-! ## Different names -/

theorem digits_injective : Function.Injective digits := by
  intro m n h
  have hvalue := congrArg (fun t => Nat.ofDigitChars 10 t 0) h
  simpa [digits, Nat.ofDigitChars_ten_toDigits] using hvalue

theorem imageFileName_injective (base extension : Text) :
    Function.Injective fun index => imageFileName base index extension := by
  intro m n h
  simp only [imageFileName, List.append_assoc, List.append_cancel_left_eq] at h
  exact digits_injective (List.append_cancel_right h)

theorem splitExtension_append {stem : Text} (hstem : stem ≠ []) {extension : Text}
    (h : '.' ∉ extension) :
    Path.splitExtension (stem ++ '.' :: extension) = (stem, some extension) := by
  have hreverse : (stem ++ '.' :: extension).reverse = extension.reverse ++ '.' :: stem.reverse := by
    simp
  have hcut := Text.upTo?_append (mt List.mem_reverse.1 h) stem.reverse
  obtain ⟨c, rest, hrest⟩ := List.exists_cons_of_ne_nil (mt List.reverse_eq_nil_iff.1 hstem)
  unfold Path.splitExtension
  rw [hreverse, hcut, hrest]
  simp only [← hrest, List.reverse_reverse]

/-- No name that goes on behind the document's own is that of the document. -/
theorem fileName_ne_append {path : Path} {name : Text} (hname : Path.fileName? path = some name)
    (c : Char) (behind : Text) {extension : Text} (h : '.' ∉ extension) :
    name ≠ baseName path ++ c :: behind ++ '.' :: extension := by
  intro heq
  have hbase : baseName path = (Path.splitExtension name).1 := by
    rw [baseName, Path.fileStem?, hname]
    rfl
  have hstem : baseName path ++ c :: behind ≠ [] := by simp
  rw [heq, splitExtension_append hstem h] at hbase
  simp at hbase

theorem point_notMem_name (format : ImageFormat) : '.' ∉ format.name := by
  cases format <;> decide

theorem imageFileName_notMem_documentNames (path : Path) (index : Nat) (extension : Text) :
    imageFileName (baseName path) index extension ∉ documentNames path := by
  simp [documentNames, siblingName, imageFileName]

/-- The `imageNames` and `documentNames` are different from each other and from the document's own
name. -/
theorem nodup_names {path : Path} {name : Text} (hname : Path.fileName? path = some name)
    (format : ImageFormat) {numbers : List Nat} (hnumbers : numbers.Nodup) :
    (name :: (imageNames path format numbers ++ documentNames path)).Nodup := by
  have himages : (imageNames path format numbers).Nodup :=
    List.Pairwise.map _ (fun _ _ hne heq => hne (imageFileName_injective _ _ heq)) hnumbers
  have hdocuments : (documentNames path).Nodup := by
    simp [documentNames, siblingName]
  have hapart : ∀ image ∈ imageNames path format numbers, image ∉ documentNames path := by
    intro image himage
    obtain ⟨index, -, rfl⟩ := List.mem_map.1 himage
    exact imageFileName_notMem_documentNames path index format.name
  have himage : name ∉ imageNames path format numbers := by
    intro hmem
    obtain ⟨index, -, heq⟩ := List.mem_map.1 hmem
    refine fileName_ne_append hname '-' ("diagram-".toList ++ digits index)
      (point_notMem_name format) ?_
    rw [← heq]
    simp [imageFileName]
  have hdocument : name ∉ documentNames path := by
    intro hmem
    have hsibling (suffix : Text) : name ≠ siblingName path suffix := by
      have hmd : '.' ∉ "md".toList := by decide
      simpa [siblingName] using fileName_ne_append hname '-' suffix hmd
    simp only [documentNames, List.mem_cons, List.not_mem_nil, or_false] at hmem
    rcases hmem with h | h <;> exact hsibling _ h
  rw [List.nodup_cons, List.mem_append, List.nodup_append]
  refine ⟨?_, himages, hdocuments, fun image himage document hdocument heq => ?_⟩
  · rintro (h | h)
    · exact himage h
    · exact hdocument h
  · exact hapart image himage (heq ▸ hdocument)

end MermaidPress.Document
