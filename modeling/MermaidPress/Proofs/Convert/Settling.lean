/-
Repairing the diagrams of a document over and over. A repair takes its sign for each change that is
not of spacing, and the signs of a document are those of its diagrams and of what is around them; so
two passes in a row are quiet before long. From there on the contents stay as they are. The
document does not, where a content has an arrow at an edge: the repair puts a blank there, which the
next pass takes for one of those around the content, and puts another.
-/
import Mathlib.Logic.Function.Iterate
import MermaidPress.Proofs.Convert.Repairing
import MermaidPress.Proofs.Diagram.Rounds

namespace MermaidPress

open Text Document Diagram

/-- The document with its diagrams `repaired`. -/
def repairPass (document : Text) : Text :=
  splice document (extract document) ((extract document).map Block.repaired)

/-- A `repairPass` never fails. -/
theorem replaceBlocks_repaired (document : Text) :
    replaceBlocks document (extract document) ((extract document).map Block.repaired) =
      .ok (repairPass document) :=
  replaceBlocks_extract (by simp)

/-- The document after `n` times `repairPass`. -/
def afterPasses (document : Text) (n : ℕ) : Text := repairPass^[n] document

theorem afterPasses_succ (document : Text) (n : ℕ) :
    afterPasses document (n + 1) = repairPass (afterPasses document n) :=
  Function.iterate_succ_apply' _ _ _

/-- The diagrams of a document. -/
def contents (document : Text) : List Text := (extract document).map Block.content

/-! ## A pass on a layout -/

/-- The segment with its diagram repaired. -/
def Document.Segment.repaired (s : Segment) : Segment :=
  s.withContent (repair (trim s.body)).source

theorem repairPass_assemble {segments : List Segment} {tail : Text}
    (hs : ∀ s ∈ segments, s.IsSound) (ht : IsPlain tail) :
    repairPass (assemble tail segments) = assemble tail (segments.map Segment.repaired) := by
  have hlen : segments.length = ((blocksOf 0 segments).map Block.repairedContent).length := by simp
  have hrun := replaceBlocks_withContent hs ht hlen
  rw [List.zipWith_map_right, List.zipWith_self, map_repairedContent_blocksOf,
    List.zipWith_map_right, List.zipWith_self] at hrun
  have hpass := replaceBlocks_repaired (assemble tail segments)
  rw [extract_assemble hs ht] at hpass
  exact Except.ok.inj (hpass.symm.trans hrun)

theorem contents_assemble {segments : List Segment} {tail : Text}
    (hs : ∀ s ∈ segments, s.IsSound) (ht : IsPlain tail) :
    contents (assemble tail segments) = segments.map fun s => trim s.body := by
  rw [contents, extract_assemble hs ht, map_content_blocksOf]

theorem trim_of_mem_contents {document content : Text} (h : content ∈ contents document) :
    trim content = content := by
  obtain ⟨segments, tail, rfl, hs, ht⟩ := exists_layout document
  rw [contents_assemble hs ht] at h
  obtain ⟨s, -, rfl⟩ := List.mem_map.1 h
  exact trim_trim _

/-! ## What a pass costs -/

/-- The `mends` of a `repairPass`, over all diagrams. -/
def passMends (document : Text) : ℕ :=
  ((contents document).map fun content => mends (repair content).changes).sum

theorem signs_withContent (s : Segment) (content : Text) :
    signs (s.withContent content).fence = signs s.opening + signs content + signs closing := by
  rw [Segment.withContent, Segment.fence]
  simp only [signs_append]
  rw [signs_of_blank fun _ => isBlank_of_mem_leading, signs_of_blank fun _ => isBlank_of_mem_trailing]
  omega

theorem Document.Segment.withContent_trim (s : Segment) : s.withContent (trim s.body) = s := by
  rw [Segment.withContent, leading_append_trim_append_trailing]

theorem signs_assemble_repaired (tail : Text) (segments : List Segment) :
    signs (assemble tail (segments.map Segment.repaired)) +
      (segments.map fun s => mends (repair (trim s.body)).changes).sum ≤
        signs (assemble tail segments) := by
  induction segments with
  | nil => exact Nat.le_refl _
  | cons s segments ih =>
    have hrepair := signs_repair (trim s.body)
    have hnew : signs s.repaired.fence = _ := signs_withContent s (repair (trim s.body)).source
    have hold := signs_withContent s (trim s.body)
    rw [s.withContent_trim] at hold
    have hgap : s.repaired.gap = s.gap := rfl
    simp only [List.map_cons, List.sum_cons, assemble, signs_append, hgap]
    omega

/-- A document pays for a `repairPass` as a source does for a `repair`. -/
theorem signs_repairPass (document : Text) :
    signs (repairPass document) + passMends document ≤ signs document := by
  obtain ⟨segments, tail, rfl, hs, ht⟩ := exists_layout document
  rw [repairPass_assemble hs ht, passMends, contents_assemble hs ht, List.map_map]
  exact signs_assemble_repaired tail segments

/-! ## Quiet passes -/

/-- `repair` changes nothing but the spacing of the content, and no more than what `trim` takes away
again. -/
structure IsSteady (content : Text) : Prop where
  quiet : mends (repair content).changes = 0
  back : trim (tidy content) = content

theorem quiet_of_mem_contents {document content : Text} (h : passMends document = 0)
    (hmem : content ∈ contents document) : mends (repair content).changes = 0 :=
  List.sum_eq_zero_iff_forall_eq_nat.1 h _ (List.mem_map_of_mem hmem)

theorem closing_infix_of_tidy {t : Text} (h : closing <:+: tidy t) : closing <:+: t :=
  infix_of_tidy (c := '`') (w := ['`', '`']) (by decide) (by decide) (by decide) (fun d hd => by
    obtain rfl : d = '`' := by simpa using hd
    exact not_isBlank_tick) h

theorem Document.Segment.IsSound.repaired {s : Segment} (h : s.IsSound)
    (hquiet : mends (repair (trim s.body)).changes = 0) : s.repaired.IsSound := by
  refine h.withContent (fun hticks => ?_) h.trailing_ne_nil
  rw [source_repair_of_quiet hquiet] at hticks
  exact (endsFirst_closing_iff.1 h.body).1 (closing_infix_trim.1 (closing_infix_of_tidy hticks))

/-- A quiet `repairPass` tidies the contents and keeps the fences. -/
theorem contents_repairPass {document : Text} (h : passMends document = 0) :
    contents (repairPass document) = (contents document).map fun content => trim (tidy content) := by
  have hquiet : ∀ content ∈ contents document, mends (repair content).changes = 0 :=
    fun _ => quiet_of_mem_contents h
  obtain ⟨segments, tail, rfl, hs, ht⟩ := exists_layout document
  rw [contents_assemble hs ht, List.forall_mem_map] at hquiet
  have hnew : ∀ s ∈ segments.map Segment.repaired, s.IsSound :=
    List.forall_mem_map.2 fun s hmem => (hs s hmem).repaired (hquiet s hmem)
  rw [repairPass_assemble hs ht, contents_assemble hnew ht, contents_assemble hs ht, List.map_map,
    List.map_map]
  refine List.map_congr_left fun s hmem => ?_
  rw [Function.comp_apply, Function.comp_apply, Segment.repaired, trim_body_withContent,
    source_repair_of_quiet (hquiet s hmem)]

/-- Behind two quiet passes the contents are steady. -/
theorem isSteady_of_quiet_pair {document : Text} (h : passMends document = 0)
    (hnext : passMends (repairPass document) = 0) :
    ∀ content ∈ contents (repairPass document), IsSteady content := by
  intro content hmem
  refine ⟨quiet_of_mem_contents hnext hmem, ?_⟩
  rw [contents_repairPass h] at hmem
  obtain ⟨old, hold, rfl⟩ := List.mem_map.1 hmem
  rw [tidy_trim_tidy (trim_of_mem_contents hold)]

theorem contents_of_isSteady {document : Text} (h : ∀ content ∈ contents document, IsSteady content) :
    contents (repairPass document) = contents document := by
  have hquiet : passMends document = 0 :=
    List.sum_eq_zero_iff_forall_eq_nat.2 (List.forall_mem_map.2 fun content hmem => (h content hmem).quiet)
  rw [contents_repairPass hquiet]
  exact (List.map_congr_left fun content hmem => (h content hmem).back).trans (List.map_id _)

/-! ## What the pass leaves alone -/

theorem map_full_blocksOf (offset : ℕ) (segments : List Segment) :
    (blocksOf offset segments).map Block.full = segments.map Segment.fence := by
  induction segments generalizing offset with
  | nil => rfl
  | cons s segments ih => rw [blocksOf, List.map_cons, ih, List.map_cons, Segment.block]

theorem source_repair_of_fence_eq {s : Segment} (h : s.repaired.fence = s.fence) :
    (repair (trim s.body)).source = trim s.body := by
  have hsame : s.repaired.fence = (s.withContent (trim s.body)).fence := by rw [s.withContent_trim, h]
  simpa [Segment.repaired, Segment.withContent, Segment.fence] using hsame

/-- With steady contents a `repairPass` leaves the document as it is if and only if no arrow stands
at the edges of a content. -/
theorem repairPass_eq_self_iff {document : Text}
    (h : ∀ content ∈ contents document, IsSteady content) :
    repairPass document = document ↔
      ∀ content ∈ contents document, ¬ arrow <+: content ∧ ¬ arrow <:+ content := by
  have hedges : ∀ content ∈ contents document, ((repair content).source = content ↔
      ¬ arrow <+: content ∧ ¬ arrow <:+ content) := fun content hmem => by
    rw [source_repair_of_quiet (h content hmem).quiet, tidy_eq_self_iff (h content hmem).back]
  refine Iff.trans ?_ (forall₂_congr hedges)
  obtain ⟨segments, tail, rfl, hs, ht⟩ := exists_layout document
  rw [contents_assemble hs ht, List.forall_mem_map] at h ⊢
  have hnew : ∀ s ∈ segments.map Segment.repaired, s.IsSound :=
    List.forall_mem_map.2 fun s hmem => (hs s hmem).repaired (h s hmem).quiet
  rw [repairPass_assemble hs ht]
  constructor
  · intro hsame s hmem
    have hfences := congrArg (fun document => (extract document).map Block.full) hsame
    rw [extract_assemble hnew ht, extract_assemble hs ht, map_full_blocksOf, map_full_blocksOf,
      List.map_map] at hfences
    exact source_repair_of_fence_eq (List.map_inj_left.1 hfences s hmem)
  · intro hsame
    have hid : ∀ s ∈ segments, s.repaired = id s := fun s hmem => by
      rw [Segment.repaired, hsame s hmem, s.withContent_trim, id]
    rw [List.map_congr_left hid, List.map_id]

/-! ## All passes -/

theorem contents_afterPasses {document : Text} {n : ℕ}
    (h : ∀ content ∈ contents (afterPasses document n), IsSteady content) {k : ℕ} (hk : n ≤ k) :
    contents (afterPasses document k) = contents (afterPasses document n) := by
  induction k, hk using Nat.le_induction with
  | base => rfl
  | succ k hk ih => rw [afterPasses_succ, contents_of_isSteady (ih ▸ h), ih]

theorem isSteady_afterPasses (document : Text) :
    ∀ content ∈ contents (afterPasses document (2 * signs document + 1)), IsSteady content := by
  have hpaid (n : ℕ) : signs (afterPasses document (n + 1)) + passMends (afterPasses document n) ≤
      signs (afterPasses document n) := by
    rw [afterPasses_succ]
    exact signs_repairPass _
  obtain ⟨n, hn, hquiet, hnext⟩ := exists_quiet_pair (fun n => signs (afterPasses document n))
    (fun n => passMends (afterPasses document n)) hpaid
  have hstart : afterPasses document 0 = document := rfl
  rw [hstart] at hn
  rw [afterPasses_succ] at hnext
  have hsteady := isSteady_of_quiet_pair hquiet hnext
  rw [← afterPasses_succ] at hsteady
  rwa [contents_afterPasses hsteady (by omega)]

theorem afterPasses_eq_of_le {document : Text} {n k : ℕ}
    (h : afterPasses document (n + 1) = afterPasses document n) (hk : n ≤ k) :
    afterPasses document k = afterPasses document n := by
  induction k, hk using Nat.le_induction with
  | base => rfl
  | succ k hk ih => rw [afterPasses_succ, ih, ← afterPasses_succ, h]

/-- **The diagrams of a document settle**, and the document where it can. No `repairPass` fails, and
after twice as many as the document has `signs`, and one more, the diagrams stay as they are. The
document itself settles if and only if none of them has an arrow at its edges by then, and in that
case it has settled by then. -/
theorem passes_settle_iff (document : Text) :
    (∀ n, replaceBlocks (afterPasses document n) (extract (afterPasses document n))
      ((extract (afterPasses document n)).map Block.repaired) =
        .ok (afterPasses document (n + 1))) ∧
    (∀ k ≥ 2 * signs document + 1, (extract (afterPasses document k)).map Block.content =
      (extract (afterPasses document (2 * signs document + 1))).map Block.content) ∧
    ((∃ n, afterPasses document (n + 1) = afterPasses document n) ↔
      ∀ block ∈ extract (afterPasses document (2 * signs document + 1)),
        ¬ arrow <+: block.content ∧ ¬ arrow <:+ block.content) ∧
    ((∃ n, afterPasses document (n + 1) = afterPasses document n) →
      ∀ k ≥ 2 * signs document + 1,
        afterPasses document k = afterPasses document (2 * signs document + 1)) := by
  have hsteady := isSteady_afterPasses document
  generalize 2 * signs document + 1 = late at hsteady ⊢
  have hcontents (k : ℕ) (hk : late ≤ k) := contents_afterPasses hsteady hk
  have hlate : (∃ n, afterPasses document (n + 1) = afterPasses document n) →
      ∀ content ∈ contents (afterPasses document late), ¬ arrow <+: content ∧ ¬ arrow <:+ content := by
    rintro ⟨n, hn⟩
    have hle : n ≤ max n late := Nat.le_max_left n late
    have hsame : repairPass (afterPasses document (max n late)) = afterPasses document (max n late) := by
      rw [← afterPasses_succ, afterPasses_eq_of_le hn (Nat.le_succ_of_le hle),
        afterPasses_eq_of_le hn hle]
    rw [← hcontents _ (Nat.le_max_right n late)] at hsteady ⊢
    exact (repairPass_eq_self_iff hsteady).1 hsame
  have hstays : (∀ content ∈ contents (afterPasses document late),
      ¬ arrow <+: content ∧ ¬ arrow <:+ content) →
      afterPasses document (late + 1) = afterPasses document late := fun h => by
    rw [afterPasses_succ]
    exact (repairPass_eq_self_iff hsteady).2 h
  refine ⟨fun n => ?_, hcontents, ?_, fun h k hk => afterPasses_eq_of_le (hstays (hlate h)) hk⟩
  · rw [afterPasses_succ]
    exact replaceBlocks_repaired _
  · rw [← List.forall_mem_map (f := Block.content)
      (P := fun content => ¬ arrow <+: content ∧ ¬ arrow <:+ content)]
    exact ⟨hlate, fun h => ⟨late, hstays h⟩⟩

/-- An arrow at the front of a diagram gets one more blank before it with every pass. -/
theorem not_settles_of_arrow_in_front :
    afterPasses "```mermaid\n-->A\n```\n".toList 1 = "```mermaid\n --> A\n```\n".toList ∧
    afterPasses "```mermaid\n-->A\n```\n".toList 2 = "```mermaid\n  --> A\n```\n".toList ∧
    ∀ n, afterPasses "```mermaid\n-->A\n```\n".toList (n + 1) ≠
      afterPasses "```mermaid\n-->A\n```\n".toList n := by
  have hone : afterPasses "```mermaid\n-->A\n```\n".toList 1 =
      "```mermaid\n --> A\n```\n".toList := by decide +kernel
  have htwo : afterPasses "```mermaid\n-->A\n```\n".toList 2 =
      "```mermaid\n  --> A\n```\n".toList := by decide +kernel
  have hcontents : contents "```mermaid\n --> A\n```\n".toList = ["--> A".toList] := by
    decide +kernel
  refine ⟨hone, htwo, fun n hsame => ?_⟩
  have hsteady : ∀ content ∈ contents (afterPasses "```mermaid\n-->A\n```\n".toList 1),
      IsSteady content := by
    rw [hone, hcontents, List.forall_mem_singleton]
    exact ⟨by decide +kernel, by decide +kernel⟩
  have hlater := contents_afterPasses hsteady (Nat.le_add_left 1 n)
  rw [← hlater] at hsteady
  have hstays := (congrArg repairPass hsame).trans (afterPasses_succ _ n).symm
  have hedges := (repairPass_eq_self_iff hsteady).1 hstays
  rw [hlater, hone, hcontents, List.forall_mem_singleton] at hedges
  exact hedges.1 ⟨" A".toList, rfl⟩

end MermaidPress
