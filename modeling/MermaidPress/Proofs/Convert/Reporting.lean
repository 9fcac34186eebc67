/-
The report of a check and the repaired document say the same. A diagram has an entry where its check
finds something or its repair changes something, and a repair that has anything to say changes the
fence, so the entries with repairs are those of the fences that change. A fence keeps its ticks and
ends in them: no two fences can make up for each other's changes, and the repaired document is another
one.
-/
import MermaidPress.Proofs.Convert.Checking
import MermaidPress.Proofs.Convert.Settling
import MermaidPress.Proofs.Diagram.Conservation

namespace MermaidPress

open Text Document Diagram

/-! ## Entries -/

/-- What `checkBlock` reports on the diagram with a number, if there is anything. -/
def entryOf (autoFix : Bool) (index : ℕ) (block : Block) : BlockFindings where
  index := index
  issues := check block.content
  fixes := if autoFix then (repair block.content).changes else []

theorem fixes_entryOf_ne_nil_iff {autoFix : Bool} {index : ℕ} {block : Block} :
    (entryOf autoFix index block).fixes ≠ [] ↔
      autoFix = true ∧ (repair block.content).changes ≠ [] := by
  cases autoFix <;> simp [entryOf]

theorem findings_checkBlock_eq_some_iff {autoFix : Bool} {index : ℕ} {block : Block}
    {entry : BlockFindings} : (checkBlock autoFix index block).findings = some entry ↔
      entry = entryOf autoFix index block ∧
        (check block.content ≠ [] ∨ autoFix = true ∧ (repair block.content).changes ≠ []) := by
  have hfindings : (checkBlock autoFix index block).findings =
      if (check block.content).isEmpty && (entryOf autoFix index block).fixes.isEmpty then none
      else some (entryOf autoFix index block) := by
    cases autoFix <;> rfl
  rw [hfindings, Option.ite_none_left_eq_some, Option.some.injEq, and_comm, eq_comm,
    ← @fixes_entryOf_ne_nil_iff autoFix index block, Bool.and_eq_true, List.isEmpty_iff,
    List.isEmpty_iff, Classical.not_and_iff_not_or_not]

theorem pairwise_snd_zipIdx (blocks : List Block) (index : ℕ) :
    (blocks.zipIdx index).Pairwise (fun a b => a.2 < b.2) := by
  rw [← List.pairwise_map, List.zipIdx_map_snd]
  exact List.pairwise_lt_range'

namespace Conversion

theorem pairwise_index_findingsOf (autoFix : Bool) (document : Text) :
    ((findingsOf autoFix document).map BlockFindings.index).Pairwise (· < ·) := by
  rw [findingsOf, checkBlocks_eq_map, List.filterMap_map, List.pairwise_map]
  refine (pairwise_snd_zipIdx (extract document) 1).filterMap _ ?_
  intro first second hlt entry hentry other hother
  rw [(findings_checkBlock_eq_some_iff.1 hentry).1, (findings_checkBlock_eq_some_iff.1 hother).1]
  exact hlt

/-- A diagram is in the report where something is found or repaired in it. -/
theorem mem_findingsOf_iff {autoFix : Bool} {document : Text} {entry : BlockFindings} :
    entry ∈ findingsOf autoFix document ↔ ∃ i block, (extract document)[i]? = some block ∧
      entry = entryOf autoFix (i + 1) block ∧
      (check block.content ≠ [] ∨ autoFix = true ∧ (repair block.content).changes ≠ []) := by
  rw [findingsOf, checkBlocks_eq_map, List.filterMap_map, List.mem_filterMap]
  constructor
  · rintro ⟨⟨block, index⟩, hmem, hentry⟩
    obtain ⟨hle, hblock⟩ := List.mem_zipIdx_iff_le_and_getElem?_sub.1 hmem
    obtain ⟨i, rfl⟩ : ∃ i, index = i + 1 := ⟨index - 1, by omega⟩
    exact ⟨i, block, hblock, findings_checkBlock_eq_some_iff.1 hentry⟩
  · rintro ⟨i, block, hblock, hentry⟩
    refine ⟨(block, i + 1), ?_, findings_checkBlock_eq_some_iff.2 hentry⟩
    exact List.mem_zipIdx_iff_le_and_getElem?_sub.2 ⟨Nat.le_add_left 1 i, hblock⟩

end Conversion

/-! ## Fences that change -/

theorem Document.Block.repaired_eq_full_iff {document : Text} {block : Block}
    (h : block ∈ extract document) :
      block.repaired = block.full ↔ (repair block.content).changes = [] := by
  constructor
  · intro hsame
    rw [← withContent_content h] at hsame
    exact changes_eq_nil_of_source_eq (block.withContent_injective hsame)
  · intro hchanges
    rw [Block.repaired, Block.repairedContent, repair_of_changes_eq_nil hchanges, withContent_content h]

theorem count_tick_repair (source : Text) : (repair source).source.count '`' = source.count '`' := by
  obtain ⟨account, heads, -, -, hcount⟩ := count_repair source
  simpa using (hcount '`' not_isBlank_tick).symm

theorem count_tick_repaired (s : Segment) : s.repaired.fence.count '`' = s.fence.count '`' := by
  have hself : s.fence = (s.withContent (trim s.body)).fence := by rw [s.withContent_trim]
  rw [hself, Segment.repaired]
  simp only [Segment.withContent, Segment.fence, List.count_append, count_tick_repair]

theorem append_eq_self_of_count {s m : Text} {c : Char} (hcount : (s ++ m).count c = s.count c)
    (hlast : (s ++ m).getLast? = some c) : s ++ m = s := by
  rw [List.count_append, Nat.add_eq_left, List.count_eq_zero] at hcount
  cases hm : m.getLast? with
  | none => rw [List.getLast?_eq_none_iff.1 hm, List.append_nil]
  | some d =>
    rw [List.getLast?_append, hm] at hlast
    obtain rfl : d = c := Option.some.inj hlast
    exact absurd (List.mem_of_getLast? hm) hcount

/-- Two beginnings of a text that have a character equally often, and at their ends, are the
same. -/
theorem eq_of_append_eq_append_of_count {s t u v : Text} {c : Char} (h : s ++ u = t ++ v)
    (hcount : s.count c = t.count c) (hs : s.getLast? = some c) (ht : t.getLast? = some c) :
    s = t := by
  rcases List.append_eq_append_iff.1 h with ⟨m, rfl, -⟩ | ⟨m, rfl, -⟩
  · exact (append_eq_self_of_count hcount.symm ht).symm
  · exact append_eq_self_of_count hcount hs

/-- Fences do not make up for each other: where the repaired fences give the text of the old ones,
each is the old one. -/
theorem fence_repaired_of_assemble_eq {segments : List Segment} {tail : Text}
    (h : assemble tail (segments.map Segment.repaired) = assemble tail segments) :
    ∀ s ∈ segments, s.repaired.fence = s.fence := by
  induction segments with
  | nil => simp
  | cons s segments ih =>
    rw [List.map_cons, assemble, assemble, List.append_assoc, List.append_assoc] at h
    have hlast (s : Segment) : s.fence.getLast? = some '`' := by
      rw [Segment.fence]
      exact getLast?_append_of_some rfl
    have hfence : s.repaired.fence = s.fence :=
      eq_of_append_eq_append_of_count (List.append_cancel_left h) (count_tick_repaired s) (hlast _)
        (hlast s)
    rw [hfence] at h
    exact List.forall_mem_cons.2
      ⟨hfence, ih (List.append_cancel_left (List.append_cancel_left h))⟩

/-- `repairPass` changes the document where a repair has anything to say. -/
theorem changes_eq_nil_of_repairPass_eq_self {document : Text} (h : repairPass document = document) :
    ∀ block ∈ extract document, (repair block.content).changes = [] := by
  obtain ⟨segments, tail, rfl, hs, ht⟩ := exists_layout document
  rw [repairPass_assemble hs ht] at h
  intro block hmem
  rw [extract_assemble hs ht] at hmem
  obtain ⟨s, start, hs, rfl⟩ := exists_of_mem_blocksOf hmem
  exact changes_eq_nil_of_source_eq
    (source_repair_of_fence_eq (fence_repaired_of_assemble_eq h s hs))

/-- The blocks whose `repair` has something to say. -/
def altered (document : Text) : List Block :=
  (extract document).filter fun block => (repair block.content).changes ≠ []

theorem mem_altered_iff {document : Text} {block : Block} :
    block ∈ altered document ↔ block ∈ extract document ∧ (repair block.content).changes ≠ [] := by
  rw [altered, List.mem_filter, decide_eq_true_eq]

theorem repairPass_eq_splice_altered (document : Text) :
    repairPass document = splice document (altered document) ((altered document).map Block.repaired) :=
  splice_filter (areFences_extract document).fitAll fun block hmem hp =>
    (Block.repaired_eq_full_iff hmem).2 (by simpa using hp)

namespace Conversion

variable {b : Backend}

theorem exists_fixes_findingsOf_iff {autoFix : Bool} {document : Text} :
    (∃ entry ∈ findingsOf autoFix document, entry.fixes ≠ []) ↔
      autoFix = true ∧ altered document ≠ [] := by
  constructor
  · rintro ⟨entry, hentry, hfixes⟩
    obtain ⟨i, block, hblock, rfl, -⟩ := mem_findingsOf_iff.1 hentry
    obtain ⟨hfix, hchanges⟩ := fixes_entryOf_ne_nil_iff.1 hfixes
    exact ⟨hfix, List.ne_nil_of_mem (mem_altered_iff.2 ⟨List.mem_of_getElem? hblock, hchanges⟩)⟩
  · rintro ⟨hfix, hne⟩
    obtain ⟨block, hmem⟩ := List.exists_mem_of_ne_nil _ hne
    obtain ⟨hblock, hchanges⟩ := mem_altered_iff.1 hmem
    obtain ⟨i, hi⟩ := List.mem_iff_getElem?.1 hblock
    have hfixes := And.intro hfix hchanges
    exact ⟨_, mem_findingsOf_iff.2 ⟨i, block, hi, rfl, .inr hfixes⟩, fixes_entryOf_ne_nil_iff.2 hfixes⟩

/-- The `fixedDocument?` is there where repairs are asked for and some diagram is `altered`. -/
theorem fixedDocument?_eq_some_iff {options : ConversionOptions} {document fixed : Text} :
    fixedDocument? options document = some fixed ↔
      options.autoFix = true ∧ altered document ≠ [] ∧ fixed = repairPass document := by
  have hfences : (extract document).map Block.repaired = (extract document).map Block.full ↔
      altered document = [] := by
    rw [List.map_inj_left, altered, List.filter_eq_nil_iff]
    refine forall₂_congr fun block hmem => ?_
    rw [Block.repaired_eq_full_iff hmem, decide_eq_true_eq, not_not]
  unfold fixedDocument?
  rw [Option.ite_none_right_eq_some, Option.some.injEq, ne_eq, hfences, and_assoc, eq_comm (b := fixed)]
  rfl

/-- **The report and the fixed document of `convertText` agree.** The entries are in the order of
their numbers, which are those of the diagrams, from one on. A diagram has one where its check finds
something or where repairs are asked for and its repair changes something, and that entry has what
the `check` of the diagram as it stands in the document finds, and what its `repair` changes. There
is a fixed document exactly where repairs are asked for and some entry has one; it is another
document, and differs in the fences of diagrams whose repair changes something, and nowhere else. -/
theorem convertText_reports {document : Text} {path : Path} {options : ConversionOptions}
    {s t : Session b} {converted : ConvertedDocument} (hchecks : options.checksSyntax = true)
    (h : convertText document path options s = (.ok converted, t)) :
    (converted.findings.map BlockFindings.index).Pairwise (· < ·) ∧
    (∀ entry, entry ∈ converted.findings ↔ ∃ i block, (extract document)[i]? = some block ∧
      entry = entryOf options.autoFix (i + 1) block ∧
      (check block.content ≠ [] ∨
        options.autoFix = true ∧ (repair block.content).changes ≠ [])) ∧
    (converted.fixed.isSome ↔
      options.autoFix = true ∧ ∃ entry ∈ converted.findings, entry.fixes ≠ []) ∧
    ∀ fixed, converted.fixed = some fixed →
      fixed ≠ document ∧
      (∀ piece ∈ outsideFrom document 0 (altered document), piece.isSome) ∧
      fixed = splice document (altered document) ((altered document).map Block.repaired) := by
  obtain ⟨content, images, rfl⟩ := exists_convertedDocument h
  have hfindings : (convertedDocument options document content images).findings =
      findingsOf options.autoFix document := filterMap_findings_checkedBlocks hchecks document
  have hfixed : (convertedDocument options document content images).fixed =
      fixedDocument? options document := rfl
  rw [hfindings, hfixed]
  refine ⟨pairwise_index_findingsOf _ _, fun entry => mem_findingsOf_iff, ?_, fun fixed hsome => ?_⟩
  · rw [exists_fixes_findingsOf_iff, Option.isSome_iff_exists]
    simp only [fixedDocument?_eq_some_iff]
    constructor
    · rintro ⟨_, hfix, hne, -⟩
      exact ⟨hfix, hfix, hne⟩
    · rintro ⟨hfix, -, hne⟩
      exact ⟨_, hfix, hne, rfl⟩
  · obtain ⟨-, hne, rfl⟩ := fixedDocument?_eq_some_iff.1 hsome
    refine ⟨fun hself => hne ?_, ?_, repairPass_eq_splice_altered document⟩
    · exact List.filter_eq_nil_iff.2 fun block hmem => by
        simpa using changes_eq_nil_of_repairPass_eq_self hself block hmem
    · exact isSome_of_mem_outsideFrom [] ((areFences_extract document).fitAll.filter _)

/-- Of two diagrams the first has an arrow without blanks: it has the one entry, and is the one that
is repaired. -/
theorem convertText_reports_two_diagrams :
    let options := { twoDiagramsOptions with validateOnly := true }
    ∃ converted fixed, convertText twoDiagrams "/w/a.md".toList options twoDiagramsSession =
        (.ok converted, twoDiagramsSession) ∧
      (∃ entry ∈ converted.findings, entry.index = 1 ∧ entry.fixes ≠ []) ∧
      converted.fixed = some fixed ∧ fixed ≠ twoDiagrams ∧
      fixed = splice twoDiagrams (altered twoDiagrams) ((altered twoDiagrams).map Block.repaired) ∧
      (altered twoDiagrams).map Block.content = ["A-->B".toList] := by
  intro options
  have hrun : convertText twoDiagrams "/w/a.md".toList options twoDiagramsSession =
      (.ok (convertedDocument options twoDiagrams none []), twoDiagramsSession) := by
    rw [convertText_eq (by decide +kernel)]
    rfl
  obtain ⟨-, hentries, hsome, hfixed⟩ := convertText_reports rfl hrun
  have hfirst : (extract twoDiagrams)[0]? =
      some ⟨"A-->B".toList, 2, 22, "```mermaid\nA-->B\n```".toList⟩ := by decide +kernel
  have hchanges : (repair "A-->B".toList).changes ≠ [] := by decide +kernel
  have hentry := (hentries _).2 ⟨0, _, hfirst, rfl, .inr ⟨rfl, hchanges⟩⟩
  obtain ⟨fixed, hf⟩ := Option.isSome_iff_exists.1 (hsome.2 ⟨rfl, _, hentry, hchanges⟩)
  obtain ⟨hne, -, hsplice⟩ := hfixed fixed hf
  exact ⟨_, fixed, hrun, ⟨_, hentry, rfl, hchanges⟩, hf, hne, hsplice, by decide +kernel⟩

end Conversion
end MermaidPress
