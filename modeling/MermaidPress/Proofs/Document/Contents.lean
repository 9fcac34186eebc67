/-
New contents in the fences of a document. A fence keeps its opening, its closing ticks and the
blanks around its content. As long as the new content brings no three ticks and the body does not
end in a tick, the fence stays one, and the rest of the document does not notice.
-/
import MermaidPress.Proofs.Document.Splicing

namespace MermaidPress.Document

open Text

/-! ## Ticks -/

theorem not_isBlank_tick : isBlank '`' = false := by decide

/-- A body is closed by the ticks behind it when it has no three ticks and no last tick. -/
theorem endsFirst_closing_iff {body : Text} :
    EndsFirst closing body ↔ ¬ closing <:+: body ∧ body.getLast? ≠ some '`' := by
  constructor
  · refine fun h => ⟨?_, fun hlast => ?_⟩
    · rintro ⟨a, b, rfl⟩
      have := h a (b ++ closing) (by simp)
      cases (List.append_eq_nil_iff.1 this).2
    · obtain ⟨a, rfl⟩ := List.getLast?_eq_some_iff.1 hlast
      cases h a ['`'] (by simp [closing])
  · rintro ⟨hticks, hlast⟩ a b hab
    rcases List.append_eq_append_iff.1 hab with ⟨m, hm, hclosing⟩ | ⟨m, rfl, -⟩
    · -- the occurrence reaches into the ticks behind the body by `m`, and into the body by `n`
      rcases List.append_eq_append_iff.1 hm with ⟨n, rfl, hn⟩ | ⟨n, -, rfl⟩
      · rcases List.eq_nil_or_concat n with rfl | ⟨n, c, rfl⟩
        · have := congrArg List.length (hclosing.symm.trans hn)
          simp only [List.length_append, List.length_nil] at this
          exact List.eq_nil_of_length_eq_zero (by omega)
        · have hc : c ∈ closing := by simp [hn]
          obtain rfl : c = '`' := by simpa [closing] using hc
          exact absurd (by simp) hlast
      · have := congrArg List.length hclosing
        simp only [List.length_append] at this
        exact List.eq_nil_of_length_eq_zero (by omega)
    · exact absurd ⟨a, m, rfl⟩ hticks

theorem tick_notMem_of_blank {t : Text} (h : ∀ c ∈ t, isBlank c = true) : '`' ∉ t :=
  notMem_of_blank h not_isBlank_tick

theorem closing_infix_around {lead trail t : Text} (hlead : ∀ c ∈ lead, isBlank c = true)
    (htrail : ∀ c ∈ trail, isBlank c = true) :
    closing <:+: lead ++ t ++ trail ↔ closing <:+: t :=
  (infix_append_right_iff ['`', '`'] (tick_notMem_of_blank htrail)).trans
    (infix_append_left_iff ['`', '`'] (tick_notMem_of_blank hlead))

theorem closing_infix_trim {t : Text} : closing <:+: trim t ↔ closing <:+: t := by
  have h := @closing_infix_around (leading t) (trailing t) (trim t)
    (fun _ => isBlank_of_mem_leading) (fun _ => isBlank_of_mem_trailing)
  rw [leading_append_trim_append_trailing] at h
  exact h.symm

/-! ## The frame of a content -/

theorem upTo?_opening {opening : Text} (h : IsOpening opening) (rest : Text) :
    ∃ line, upTo? '\n' (opening ++ rest) = some (line, rest) ∧
      byteLength line + 1 = byteLength opening := by
  rcases h with rfl | rfl
  · have hline : '\n' ∉ openingWord := by decide
    exact ⟨openingWord, by simpa using upTo?_append hline rest, rfl⟩
  · have hline : '\n' ∉ openingWord ++ ['\r'] := by decide
    exact ⟨openingWord ++ ['\r'], by simpa using upTo?_append hline rest, rfl⟩

theorem Segment.fence_eq_parts (s : Segment) :
    s.fence = s.opening ++ leading s.body ++ trim s.body ++ (trailing s.body ++ closing) := by
  calc
    s.fence = s.opening ++ (leading s.body ++ trim s.body ++ trailing s.body) ++ closing := by
      rw [leading_append_trim_append_trailing, Segment.fence]
    _ = s.opening ++ leading s.body ++ trim s.body ++ (trailing s.body ++ closing) := by simp

/-- The `frame?` of a fence is the opening with the blanks behind it, and the closing ticks with the
blanks before them. -/
theorem Segment.IsSound.frame?_block {s : Segment} (h : s.IsSound) (start : Nat) :
    (s.block start).frame? = some (s.opening ++ leading s.body, trailing s.body ++ closing) := by
  obtain ⟨line, hline, hlen⟩ := upTo?_opening h.opening (s.body ++ closing)
  rw [← List.append_assoc, ← Segment.fence] at hline
  have hsize : byteLength s.fence =
      byteLength s.opening + byteLength s.body + byteLength closing := by
    simp only [Segment.fence, byteLength_append]
  have hinner : slice? s.fence (byteLength s.opening) (byteLength s.fence - byteLength closing) =
      some s.body := by
    rw [hsize, Nat.add_sub_cancel]
    exact slice?_append s.opening s.body closing
  have hlead : byteLength s.body - byteLength (trimLeft s.body) = byteLength (leading s.body) := by
    have := congrArg byteLength (takeWhile_append_trimLeft s.body)
    rw [byteLength_append, ← leading] at this
    omega
  have hbefore : slice? s.fence 0 (byteLength (s.opening ++ leading s.body)) =
      some (s.opening ++ leading s.body) := by
    rw [s.fence_eq_parts, List.append_assoc _ (trim s.body)]
    simpa using slice?_append [] (s.opening ++ leading s.body)
      (trim s.body ++ (trailing s.body ++ closing))
  have hbehind : slice? s.fence (byteLength (s.opening ++ leading s.body ++ trim s.body))
      (byteLength s.fence) = some (trailing s.body ++ closing) := by
    rw [s.fence_eq_parts]
    exact slice?_append_right _ _
  have hclosing : byteLength closing ≤ byteLength s.fence := by omega
  have hguard : (guard (byteLength closing ≤ byteLength s.fence) : Option Unit) = some () :=
    if_pos hclosing
  rw [byteLength_append] at hbefore
  rw [byteLength_append, byteLength_append] at hbehind
  unfold Segment.block Block.frame?
  dsimp only
  rw [hguard]
  simp only [hline, Option.elim, hlen, hinner, hlead, hbefore, hbehind, Option.bind_eq_bind,
    Option.bind_some]

/-- The segment with `content` in the place of its own, between the same blanks. -/
def Segment.withContent (s : Segment) (content : Text) : Segment :=
  { s with body := leading s.body ++ content ++ trailing s.body }

/-- `Block.withContent` puts into a fence what `Segment.withContent` puts into its segment. -/
theorem Segment.IsSound.withContent_block {s : Segment} (h : s.IsSound) (start : Nat)
    (content : Text) : (s.block start).withContent content = (s.withContent content).fence := by
  rw [Block.withContent, h.frame?_block, Segment.withContent, Segment.fence]
  simp

theorem withContent_content {document : Text} {block : Block} (h : block ∈ extract document) :
    block.withContent block.content = block.full := by
  obtain ⟨segments, tail, rfl, hs, ht⟩ := exists_layout document
  rw [extract_assemble hs ht] at h
  obtain ⟨s, start, hmem, rfl⟩ := exists_of_mem_blocksOf h
  rw [(hs s hmem).withContent_block]
  show (s.withContent (trim s.body)).fence = s.fence
  rw [Segment.withContent, leading_append_trim_append_trailing]

theorem Block.withContent_injective (block : Block) : Function.Injective block.withContent := by
  intro c d h
  have cancel : ∀ before behind : Text, before ++ c ++ behind = before ++ d ++ behind → c = d :=
    fun _ _ h => List.append_cancel_left (List.append_cancel_right h)
  exact cancel _ _ h

/-- **A block of `extract` is a frame around its content.** All slices that the frame is made of
exist: before the content are the opening and the body's `leading` blanks, behind it the body's
`trailing` blanks and the closing ticks. The block's own content gives back the block's text, every
content stands between the same two parts, and no two contents give one text. -/
theorem content_between_frame {document : Text} {block : Block} (h : block ∈ extract document) :
    ∃ opening body, IsOpening opening ∧ EndsFirst closing body ∧
      block.full = opening ++ body ++ closing ∧
      body = leading body ++ block.content ++ trailing body ∧ TrimsTo body block.content ∧
      block.frame? = some (opening ++ leading body, trailing body ++ closing) ∧
      block.withContent block.content = block.full ∧
      (∀ content, block.withContent content =
        opening ++ leading body ++ content ++ (trailing body ++ closing)) ∧
      Function.Injective block.withContent := by
  have hself := withContent_content h
  obtain ⟨segments, tail, rfl, hs, ht⟩ := exists_layout document
  rw [extract_assemble hs ht] at h
  obtain ⟨s, start, hmem, rfl⟩ := exists_of_mem_blocksOf h
  have hsound := hs s hmem
  refine ⟨s.opening, s.body, hsound.opening, hsound.body, rfl,
    (leading_append_trim_append_trailing s.body).symm, trimsTo_trim s.body, hsound.frame?_block start,
    hself, fun content => ?_, Block.withContent_injective _⟩
  rw [hsound.withContent_block, Segment.withContent, Segment.fence]
  simp only [List.append_assoc]

/-- Nothing but blanks of one and of three bytes: the content is empty, and stands behind all of
them. -/
theorem content_behind_blanks :
    let document := "ö```mermaid\r\n\u2003 \n```".toList
    let block : Block := ⟨[], 2, 22, "```mermaid\r\n\u2003 \n```".toList⟩
    block ∈ extract document ∧ block.withContent [] = block.full ∧
      block.withContent "A".toList = "```mermaid\r\n\u2003 \nA```".toList ∧
      ∀ c, block.withContent c = "```mermaid\r\n\u2003 \nA```".toList → c = "A".toList := by
  intro document block
  have hmem : block ∈ extract document := by decide +kernel
  have hA : block.withContent "A".toList = "```mermaid\r\n\u2003 \nA```".toList := by decide +kernel
  obtain ⟨opening, body, -, -, -, -, -, -, hself, -, hinj⟩ := content_between_frame hmem
  exact ⟨hmem, hself, hA, fun c hc => hinj (hc.trans hA.symm)⟩

/-! ## Documents with other contents -/

/-- The fences stay where `contents` are put into them: `extract` finds as many as before, each has
the content meant for it, and the text outside of them is the same. -/
structure KeepsFences (document changed : Text) (contents : List Text) : Prop where
  count : (extract changed).length = (extract document).length
  contents : (extract changed).map Block.content = contents.map trim
  outside : outsideFrom changed 0 (extract changed) = outsideFrom document 0 (extract document)

theorem Segment.IsSound.withContent {s : Segment} (h : s.IsSound) {content : Text}
    (hticks : ¬ closing <:+: content)
    (hlast : content.getLast? = some '`' → trailing s.body ≠ []) :
    (s.withContent content).IsSound where
  opening := h.opening
  gap := h.gap
  body := by
    refine endsFirst_closing_iff.2 ⟨?_, fun hbody => ?_⟩
    · rwa [Segment.withContent, closing_infix_around (fun _ => isBlank_of_mem_leading)
        (fun _ => isBlank_of_mem_trailing)]
    · rw [Segment.withContent, List.getLast?_append] at hbody
      cases htrail : (trailing s.body).getLast? with
      | some c =>
        have hc := isBlank_of_mem_trailing (List.mem_of_getLast? htrail)
        rw [htrail] at hbody
        obtain rfl : c = '`' := Option.some.inj hbody
        rw [not_isBlank_tick] at hc
        cases hc
      | none =>
        rw [htrail, Option.none_or, List.getLast?_append] at hbody
        cases hcontent : content.getLast? with
        | some c =>
          rw [hcontent] at hbody
          obtain rfl : c = '`' := Option.some.inj hbody
          exact hlast hcontent (List.getLast?_eq_none_iff.1 htrail)
        | none =>
          rw [hcontent, Option.none_or] at hbody
          exact tick_notMem_of_blank (fun _ => isBlank_of_mem_leading) (List.mem_of_getLast? hbody)

theorem map_content_blocksOf (offset : Nat) (segments : List Segment) :
    (blocksOf offset segments).map Block.content = segments.map fun s => trim s.body := by
  induction segments generalizing offset with
  | nil => rfl
  | cons s segments ih => rw [blocksOf, List.map_cons, ih, List.map_cons, Segment.block]

theorem zipWith_withContent_blocksOf {segments : List Segment} (hs : ∀ s ∈ segments, s.IsSound)
    (offset : Nat) (contents : List Text) :
    (blocksOf offset segments).zipWith Block.withContent contents =
      (segments.zipWith Segment.withContent contents).map Segment.fence := by
  induction segments generalizing offset contents with
  | nil => rfl
  | cons s segments ih =>
    obtain ⟨hsound, hrest⟩ := List.forall_mem_cons.1 hs
    cases contents with
    | nil => rfl
    | cons c contents =>
      rw [blocksOf, List.zipWith_cons_cons, List.zipWith_cons_cons, List.map_cons,
        hsound.withContent_block, ih hrest]

theorem weave_withContent {segments : List Segment} {contents : List Text}
    (h : segments.length = contents.length) (tail : Text) :
    weave tail segments ((segments.zipWith Segment.withContent contents).map Segment.fence) =
      assemble tail (segments.zipWith Segment.withContent contents) := by
  induction segments generalizing contents with
  | nil => rfl
  | cons s segments ih =>
    cases contents with
    | nil => cases h
    | cons c contents =>
      rw [List.zipWith_cons_cons, List.map_cons, weave, assemble, ih (Nat.succ.inj h)]
      rfl

/-- `replaceBlocks` puts new contents into a layout fence by fence. -/
theorem replaceBlocks_withContent {segments : List Segment} {contents : List Text} {tail : Text}
    (hs : ∀ s ∈ segments, s.IsSound) (ht : IsPlain tail) (h : segments.length = contents.length) :
    replaceBlocks (assemble tail segments) (blocksOf 0 segments)
      ((blocksOf 0 segments).zipWith Block.withContent contents) =
        .ok (assemble tail (segments.zipWith Segment.withContent contents)) := by
  rw [replaceBlocks_assemble hs ht (by simp [h]), zipWith_withContent_blocksOf hs,
    weave_withContent h]

theorem trim_body_withContent (s : Segment) (content : Text) :
    trim (s.withContent content).body = trim content :=
  trim_append_of_blank (fun _ => isBlank_of_mem_leading) (fun _ => isBlank_of_mem_trailing) content

theorem keepsFences_of_isSound {segments : List Segment} {contents : List Text} {tail : Text}
    (hs : ∀ s ∈ segments, s.IsSound) (ht : IsPlain tail) (h : segments.length = contents.length)
    (hnew : ∀ s ∈ segments.zipWith Segment.withContent contents, s.IsSound) :
    KeepsFences (assemble tail segments)
      (assemble tail (segments.zipWith Segment.withContent contents)) contents where
  count := by
    rw [extract_assemble hs ht, extract_assemble hnew ht]
    simp [h]
  contents := by
    rw [extract_assemble hnew ht, map_content_blocksOf]
    refine List.ext_getElem (by simp [h]) fun i _ _ => ?_
    simp [trim_body_withContent]
  outside := by
    have hgaps : (segments.zipWith Segment.withContent contents).map (fun s => some s.gap) =
        segments.map fun s => some s.gap := by
      refine List.ext_getElem (by simp [h]) fun i _ _ => ?_
      simp [Segment.withContent]
    rw [extract_assemble hs ht, extract_assemble hnew ht]
    have hold := outsideFrom_blocksOf segments [] tail
    have hnew := outsideFrom_blocksOf (segments.zipWith Segment.withContent contents) [] tail
    rw [hgaps, ← hold] at hnew
    exact hnew

theorem not_closing_infix_of_mem_extract {document : Text} {block : Block}
    (h : block ∈ extract document) : ¬ closing <:+: block.content := by
  obtain ⟨segments, tail, rfl, hs, ht⟩ := exists_layout document
  rw [extract_assemble hs ht] at h
  obtain ⟨s, start, hmem, rfl⟩ := exists_of_mem_blocksOf h
  exact fun hc => (endsFirst_closing_iff.1 (hs s hmem).body).1 (closing_infix_trim.1 hc)

/-- Contents that come out again have no three ticks. -/
theorem KeepsFences.not_closing_infix {document changed : Text} {contents : List Text}
    (h : KeepsFences document changed contents) {content : Text} (hc : content ∈ contents) :
    ¬ closing <:+: content := by
  have hmem : trim content ∈ (extract changed).map Block.content :=
    h.contents ▸ List.mem_map_of_mem hc
  obtain ⟨block, hb, heq⟩ := List.mem_map.1 hmem
  rw [← closing_infix_trim, ← heq]
  exact not_closing_infix_of_mem_extract hb

end MermaidPress.Document
