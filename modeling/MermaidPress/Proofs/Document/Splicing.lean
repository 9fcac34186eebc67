/-
Replacing the fences of a document, said on its layout: the plain parts stay, and each fence makes
room for its replacement. The blocks that `extract` finds always fit, so replacing them never
fails.
-/
import MermaidPress.Proofs.Document.Fences
import MermaidPress.Proofs.Document.Replacing

namespace MermaidPress.Document

open Text

/-! ## Blocks of a scan fit -/

theorem AreFences.fitAll {document : Text} {cursor : Nat} {blocks : List Block}
    (h : AreFences document cursor blocks) : FitAll document cursor blocks := fun i block hi =>
  ⟨h.ordered i block hi, (h.fenced block (List.mem_of_getElem? hi)).held⟩

/-- **The blocks of `extract` can be replaced**, by any texts, one for each. -/
theorem replaceBlocks_extract {document : Text} {replacements : List Text}
    (h : (extract document).length = replacements.length) :
    replaceBlocks document (extract document) replacements =
      .ok (splice document (extract document) replacements) :=
  replaceBlocks_of_fitAll h (areFences_extract document).fitAll

/-! ## Blocks that stay -/

theorem Block.Fits.start_le_stop {document : Text} {cursor : Nat} {block : Block}
    (h : block.Fits document cursor) : block.start ≤ block.stop := (le_of_slice? h.held).1

theorem FitAll.mono {document : Text} {cursor later : Nat} {blocks : List Block}
    (h : FitAll document later blocks) (hle : cursor ≤ later) : FitAll document cursor blocks := by
  cases blocks with
  | nil => exact fitAll_nil document cursor
  | cons block blocks =>
    obtain ⟨hfits, hrest⟩ := fitAll_cons.1 h
    exact fitAll_cons.2 ⟨⟨Nat.le_trans hle hfits.ordered, hfits.held⟩, hrest⟩

theorem FitAll.filter {document : Text} {cursor : Nat} {blocks : List Block}
    (h : FitAll document cursor blocks) (p : Block → Bool) :
    FitAll document cursor (blocks.filter p) := by
  induction blocks generalizing cursor with
  | nil => exact h
  | cons block blocks ih =>
    obtain ⟨hfits, hrest⟩ := fitAll_cons.1 h
    rw [List.filter_cons]
    split
    · exact fitAll_cons.2 ⟨hfits, ih hrest⟩
    · exact (ih hrest).mono (Nat.le_trans hfits.ordered hfits.start_le_stop)

/-- Text in which no block begins is copied. -/
theorem spliceFrom_append {front rest : Text} (middle : Text) {blocks : List Block}
    (h : FitAll (front ++ middle ++ rest) (byteLength (front ++ middle)) blocks)
    (replacement : Block → Text) :
    spliceFrom (front ++ middle ++ rest) (byteLength front)
        (blocks.map fun block => (block, replacement block)) =
      middle ++ spliceFrom (front ++ middle ++ rest) (byteLength (front ++ middle))
        (blocks.map fun block => (block, replacement block)) := by
  cases blocks with
  | nil =>
    rw [List.map_nil, spliceFrom, spliceFrom, slice?_append_right, List.append_assoc,
      slice?_append_right]
    rfl
  | cons block blocks =>
    obtain ⟨gap, behind, rfl, hstart, -⟩ := (fitAll_cons.1 h).1.exists_gap
    have hlong : slice? (front ++ middle ++ (gap ++ block.full ++ behind)) (byteLength front)
        block.start = some (middle ++ gap) := by
      rw [hstart]
      simpa [Nat.add_assoc] using slice?_append front (middle ++ gap) (block.full ++ behind)
    have hshort : slice? (front ++ middle ++ (gap ++ block.full ++ behind))
        (byteLength (front ++ middle)) block.start = some gap := by
      rw [hstart]
      simpa [Nat.add_assoc] using slice?_append (front ++ middle) gap (block.full ++ behind)
    rw [List.map_cons, spliceFrom, spliceFrom, hlong, hshort]
    simp only [Option.getD_some, List.append_assoc]

/-- Blocks that are replaced by their own text need not be replaced. -/
theorem spliceFrom_filter {document : Text} {blocks : List Block} {p : Block → Bool}
    {replacement : Block → Text}
    (hself : ∀ block ∈ blocks, p block = false → replacement block = block.full)
    (front : Text) {rest : Text} (hdocument : document = front ++ rest)
    (h : FitAll document (byteLength front) blocks) :
    spliceFrom document (byteLength front) (blocks.map fun block => (block, replacement block)) =
      spliceFrom document (byteLength front)
        ((blocks.filter p).map fun block => (block, replacement block)) := by
  induction blocks generalizing front rest with
  | nil => rfl
  | cons block blocks ih =>
    obtain ⟨hblock, hothers⟩ := List.forall_mem_cons.1 hself
    obtain ⟨hfits, hrest⟩ := fitAll_cons.1 h
    rw [hdocument] at hfits
    obtain ⟨gap, behind, rfl, hstart, hstop⟩ := hfits.exists_gap
    have hsplit : document = front ++ gap ++ block.full ++ behind := by
      rw [hdocument]
      simp
    rw [hstop] at hrest
    have hsame := ih hothers (front ++ gap ++ block.full) hsplit hrest
    rw [List.map_cons, spliceFrom, hstop, hsame, List.filter_cons]
    split
    · rw [List.map_cons, spliceFrom, hstop]
    · rename_i hp
      have hgap : slice? document (byteLength front) block.start = some gap := by
        rw [hstart, hsplit, byteLength_append, List.append_assoc (front ++ gap)]
        exact slice?_append front gap _
      rw [hgap, hblock (Bool.eq_false_iff.2 hp)]
      have hfit := hrest.filter p
      rw [hsplit, List.append_assoc front] at hfit ⊢
      exact (spliceFrom_append (gap ++ block.full) hfit replacement).symm

theorem splice_filter {document : Text} {blocks : List Block} {p : Block → Bool}
    {replacement : Block → Text} (h : FitAll document 0 blocks)
    (hself : ∀ block ∈ blocks, p block = false → replacement block = block.full) :
    splice document blocks (blocks.map replacement) =
      splice document (blocks.filter p) ((blocks.filter p).map replacement) := by
  have hfilter := spliceFrom_filter hself [] rfl h
  rw [List.map_prod_left_eq_zip, List.map_prod_left_eq_zip] at hfilter
  exact hfilter

/-! ## Replacing on a layout -/

/-- The text of segments with a replacement in the place of each `fence`. -/
def weave (tail : Text) : List Segment → List Text → Text
  | s :: segments, t :: replacements => s.gap ++ t ++ weave tail segments replacements
  | _, _ => tail

@[simp] theorem length_blocksOf (offset : Nat) (segments : List Segment) :
    (blocksOf offset segments).length = segments.length := by
  induction segments generalizing offset with
  | nil => rfl
  | cons s segments ih => simp [blocksOf, ih]

theorem extract_assemble {segments : List Segment} {tail : Text}
    (hs : ∀ s ∈ segments, s.IsSound) (ht : IsPlain tail) :
    extract (assemble tail segments) = blocksOf 0 segments :=
  blocksFrom_assemble hs ht 0

theorem slice?_gap (s : Segment) (segments : List Segment) (front tail : Text) :
    slice? (front ++ assemble tail (s :: segments)) (byteLength front)
      (s.block (byteLength front + byteLength s.gap)).start = some s.gap := by
  rw [append_assemble_cons, List.append_assoc (front ++ s.gap)]
  exact slice?_append front s.gap _

theorem spliceFrom_blocksOf {segments : List Segment} {replacements : List Text} (front : Text)
    {tail : Text} (h : segments.length = replacements.length) :
    spliceFrom (front ++ assemble tail segments) (byteLength front)
      ((blocksOf (byteLength front) segments).zip replacements) = weave tail segments replacements := by
  induction segments generalizing front replacements with
  | nil =>
    rw [blocksOf, List.zip_nil_left, spliceFrom, slice?_append_right]
    rfl
  | cons s segments ih =>
    cases replacements with
    | nil => cases h
    | cons t replacements =>
      rw [blocksOf, List.zip_cons_cons, spliceFrom, slice?_gap, stop_block_gap,
        append_assemble_cons, ih _ (Nat.succ.inj h)]
      rfl

theorem outsideFrom_blocksOf (segments : List Segment) (front tail : Text) :
    outsideFrom (front ++ assemble tail segments) (byteLength front)
      (blocksOf (byteLength front) segments) =
        segments.map (fun s => some s.gap) ++ [some tail] := by
  induction segments generalizing front with
  | nil =>
    rw [blocksOf, outsideFrom, assemble, slice?_append_right]
    rfl
  | cons s segments ih =>
    rw [blocksOf, outsideFrom, slice?_gap, stop_block_gap, append_assemble_cons, ih]
    rfl

/-- `replaceBlocks` weaves the replacements into a sound layout. -/
theorem replaceBlocks_assemble {segments : List Segment} {replacements : List Text} {tail : Text}
    (hs : ∀ s ∈ segments, s.IsSound) (ht : IsPlain tail)
    (h : segments.length = replacements.length) :
    replaceBlocks (assemble tail segments) (blocksOf 0 segments) replacements =
      .ok (weave tail segments replacements) := by
  have hblocks := extract_assemble hs ht
  rw [← hblocks, replaceBlocks_extract (by rw [hblocks, length_blocksOf, h]), hblocks]
  exact congrArg Except.ok (spliceFrom_blocksOf [] h)

end MermaidPress.Document
