/-
Repairing the diagrams of a document in place. A repair looks at the content of a fence alone.
It can take away what stands between ticks, and three ticks that come together in this way close
the fence before its time. That is the only way in which a repair harms the fences.
-/
import MermaidPress.Convert.Check
import MermaidPress.Proofs.Diagram.Passes
import MermaidPress.Proofs.Document.Contents

namespace MermaidPress

open Text Document

/-- The content of the block after its `repair`. -/
def Document.Block.repairedContent (block : Block) : Text := (Diagram.repair block.content).source

/-- The fence of the block with its `repairedContent`. -/
def Document.Block.repaired (block : Block) : Text := block.withContent block.repairedContent

/-! ## The fixed document -/

theorem Document.Block.repaired_eq_full {document : Text} {block : Block}
    (hmem : block ∈ extract document) (h : (Diagram.repair block.content).isChanged = false) :
    block.repaired = block.full := by
  have hchanges : (Diagram.repair block.content).changes = [] := by
    simpa [Diagram.Repaired.isChanged] using h
  rw [Block.repaired, Block.repairedContent, Diagram.repair_of_changes_eq_nil hchanges,
    withContent_content hmem]

theorem checkBlock_repairing {document : Text} {block : Block} (hmem : block ∈ extract document)
    (index : Nat) :
    (checkBlock true index block).replacement = block.repaired ∧
      (checkBlock true index block).changed = decide (block.repaired ≠ block.full) := by
  have hreplacement : (checkBlock true index block).replacement = block.repaired := by
    simp only [checkBlock, if_true]
    split
    · rfl
    · rename_i hchanged
      exact (Block.repaired_eq_full hmem (Bool.eq_false_iff.2 hchanged)).symm
  exact ⟨hreplacement, hreplacement ▸ rfl⟩

/-- `checkBlocks` takes the blocks one by one, each with its number. -/
theorem checkBlocks_eq_map (autoFix : Bool) (index : Nat) (blocks : List Block) :
    checkBlocks autoFix index blocks =
      (blocks.zipIdx index).map fun (block, i) => checkBlock autoFix i block := by
  induction blocks generalizing index with
  | nil => rfl
  | cons block blocks ih => rw [checkBlocks, ih, List.zipIdx_cons, List.map_cons]

theorem map_replacement_checkBlocks (document : Text) {blocks : List Block}
    (h : ∀ block ∈ blocks, block ∈ extract document) (index : Nat) :
    (checkBlocks true index blocks).map CheckedBlock.replacement = blocks.map Block.repaired := by
  induction blocks generalizing index with
  | nil => rfl
  | cons block blocks ih =>
    obtain ⟨hmem, hrest⟩ := List.forall_mem_cons.1 h
    rw [checkBlocks, List.map_cons, List.map_cons, (checkBlock_repairing hmem index).1, ih hrest]

theorem any_changed_checkBlocks (document : Text) {blocks : List Block}
    (h : ∀ block ∈ blocks, block ∈ extract document) (index : Nat) :
    (checkBlocks true index blocks).any CheckedBlock.changed =
      decide (blocks.map Block.repaired ≠ blocks.map Block.full) := by
  induction blocks generalizing index with
  | nil => rfl
  | cons block blocks ih =>
    obtain ⟨hmem, hrest⟩ := List.forall_mem_cons.1 h
    rw [checkBlocks, List.any_cons, (checkBlock_repairing hmem index).2, ih hrest, Bool.eq_iff_iff]
    simp [Classical.or_iff_not_imp_left]

theorem any_changed_checking (index : Nat) (blocks : List Block) :
    (checkBlocks false index blocks).any CheckedBlock.changed = false := by
  induction blocks generalizing index with
  | nil => rfl
  | cons block blocks ih =>
    rw [checkBlocks, List.any_cons, ih]
    simp [checkBlock, Diagram.Repaired.isChanged]

/-- The document with its diagrams `repaired`, where that is asked for and changes a fence. -/
def fixedDocument? (options : ConversionOptions) (document : Text) : Option Text :=
  let repaired := (extract document).map Block.repaired
  if options.autoFix ∧ repaired ≠ (extract document).map Block.full then
    some (splice document (extract document) repaired)
  else none

/-! ## What a repair does to the fences -/

/-- A repaired content ends in a tick only before blanks. -/
theorem Document.Segment.IsSound.trailing_ne_nil {s : Segment} (h : s.IsSound)
    (hlast : (Diagram.repair (trim s.body)).source.getLast? = some '`') : trailing s.body ≠ [] := by
  intro htrail
  have hcontent : (trim s.body).getLast? = some '`' := Diagram.getLast?_of_repair hlast
  have hbody := leading_append_trim_append_trailing s.body
  rw [htrail, List.append_nil] at hbody
  refine (endsFirst_closing_iff.1 h.body).2 ?_
  rw [← hbody]
  exact getLast?_append_of_some hcontent

theorem map_repairedContent_blocksOf (offset : Nat) (segments : List Segment) :
    (blocksOf offset segments).map Block.repairedContent =
      segments.map fun s => (Diagram.repair (trim s.body)).source := by
  have := congrArg (List.map fun t => (Diagram.repair t).source) (map_content_blocksOf offset segments)
  rw [List.map_map, List.map_map] at this
  exact this

/-- **Repairing the diagrams of a document `KeepsFences` exactly where no repaired diagram has three
ticks.** -/
theorem keepsFences_repaired_iff (document : Text) :
    ∃ changed, replaceBlocks document (extract document)
        ((extract document).map Block.repaired) = .ok changed ∧
      (KeepsFences document changed ((extract document).map Block.repairedContent) ↔
        ∀ block ∈ extract document, ¬ closing <:+: block.repairedContent) := by
  obtain ⟨segments, tail, rfl, hs, ht⟩ := exists_layout document
  rw [extract_assemble hs ht]
  have hlen : segments.length = ((blocksOf 0 segments).map Block.repairedContent).length := by simp
  have hrun := replaceBlocks_withContent hs ht hlen
  rw [List.zipWith_map_right, List.zipWith_self] at hrun
  refine ⟨_, hrun, fun h block hb => h.not_closing_infix (List.mem_map_of_mem hb), fun h => ?_⟩
  have hticks : ∀ content ∈ (blocksOf 0 segments).map Block.repairedContent,
    ¬ closing <:+: content := List.forall_mem_map.2 h
  refine keepsFences_of_isSound hs ht hlen fun s hmem => ?_
  rw [map_repairedContent_blocksOf] at hticks hmem
  rw [List.zipWith_map_right, List.zipWith_self] at hmem
  obtain ⟨old, hold, rfl⟩ := List.mem_map.1 hmem
  exact (hs old hold).withContent (hticks _ (List.mem_map_of_mem hold)) (hs old hold).trailing_ne_nil

/-- A repair that takes the parentheses from between ticks closes the fence early: the end of
the diagram falls out of it. -/
theorem not_keepsFences_of_parenthesized_tick :
    ∃ document changed, replaceBlocks document (extract document)
        ((extract document).map Block.repaired) = .ok changed ∧
      document = "```mermaid\nA[x<br/>`(`)`]\n```\n".toList ∧
      changed = "```mermaid\nA[x<br/>```]\n```\n".toList ∧
      (extract changed).map Block.content = ["A[x<br/>".toList] ∧
      ¬ KeepsFences document changed ((extract document).map Block.repairedContent) := by
  have hcontent : (extract "```mermaid\nA[x<br/>```]\n```\n".toList).map Block.content =
      ["A[x<br/>".toList] := by decide +kernel
  refine ⟨_, _, ?_, rfl, rfl, hcontent, fun h => ?_⟩
  · decide +kernel
  · have := hcontent.symm.trans h.contents
    revert this
    decide +kernel

end MermaidPress
