/-
The scan against the grammar of fences. `AreFences` says by byte offsets alone which blocks a
document has: each is an opening, a body and the first three ticks behind the opening; between
them no opening begins; and an opening behind the last of them is never closed. `extract` gives
a list that is so, and there is no other.
-/
import MermaidPress.Proofs.Document.Layout
import MermaidPress.Proofs.Text.Trim

namespace MermaidPress.Document

open Text

/-! ## The grammar -/

/-- The text between two offsets is an opening. -/
def OpensAt (document : Text) (start stop : Nat) : Prop :=
  ∃ opening, IsOpening opening ∧ slice? document start stop = some opening

/-- Three ticks stand at an offset. -/
def TicksAt (document : Text) (position : Nat) : Prop :=
  slice? document position (position + 3) = some closing

/-- The block is a fence of the document: an opening, a body, and the first three ticks behind the
opening; its text is that of its span and its content the body without the blanks on either side. -/
structure IsFence (document : Text) (block : Block) : Prop where
  held : slice? document block.start block.stop = some block.full
  start_lt_stop : block.start < block.stop
  parts : ∃ inside ticks body, OpensAt document block.start inside ∧
    slice? document inside ticks = some body ∧ TicksAt document ticks ∧
    (∀ position, inside ≤ position → TicksAt document position → ticks ≤ position) ∧
    block.stop = ticks + 3 ∧ TrimsTo body block.content

/-- The blocks are all fences of the document from byte `cursor` on, in their order. -/
structure AreFences (document : Text) (cursor : Nat) (blocks : List Block) : Prop where
  fenced : ∀ block ∈ blocks, IsFence document block
  ordered : ∀ i (block : Block), blocks[i]? = some block →
    stopBefore cursor blocks i ≤ block.start
  /-- No opening begins between two blocks, also none that reaches into the second. -/
  gaps : ∀ i (block : Block), blocks[i]? = some block → ∀ start stop,
    stopBefore cursor blocks i ≤ start → start < block.start → ¬ OpensAt document start stop
  /-- No opening behind the last block has three ticks behind it. -/
  tail : ∀ start stop ticks, stopBefore cursor blocks blocks.length ≤ start →
    OpensAt document start stop → stop ≤ ticks → ¬ TicksAt document ticks

theorem areFences_nil {document : Text} {cursor : Nat} :
    AreFences document cursor [] ↔ ∀ start stop ticks, cursor ≤ start →
      OpensAt document start stop → stop ≤ ticks → ¬ TicksAt document ticks :=
  ⟨fun h => h.tail, fun h => ⟨by simp, by simp, by simp, h⟩⟩

theorem areFences_cons {document : Text} {cursor : Nat} {block : Block} {blocks : List Block} :
    AreFences document cursor (block :: blocks) ↔
      IsFence document block ∧ cursor ≤ block.start ∧
      (∀ start stop, cursor ≤ start → start < block.start → ¬ OpensAt document start stop) ∧
      AreFences document block.stop blocks := by
  have hlast : stopBefore cursor (block :: blocks) (block :: blocks).length =
      stopBefore block.stop blocks blocks.length :=
    stopBefore_cons cursor block blocks (Nat.le_refl _)
  constructor
  · intro h
    obtain ⟨hf, hfs⟩ := List.forall_mem_cons.1 h.fenced
    obtain ⟨ho, hos⟩ := (forall_stopBefore_cons (P := fun b n => n ≤ b.start)).1 h.ordered
    obtain ⟨hg, hgs⟩ := (forall_stopBefore_cons (P := fun b n => ∀ start stop, n ≤ start →
      start < b.start → ¬ OpensAt document start stop)).1 h.gaps
    exact ⟨hf, ho, hg, hfs, hos, hgs, hlast ▸ h.tail⟩
  · rintro ⟨hf, ho, hg, h⟩
    exact {
      fenced := List.forall_mem_cons.2 ⟨hf, h.fenced⟩
      ordered := (forall_stopBefore_cons (P := fun b n => n ≤ b.start)).2 ⟨ho, h.ordered⟩
      gaps := (forall_stopBefore_cons (P := fun b n => ∀ start stop, n ≤ start →
        start < b.start → ¬ OpensAt document start stop)).2 ⟨hg, h.gaps⟩
      tail := hlast ▸ h.tail }

/-! ## There is one list -/

theorem OpensAt.unique {document : Text} {start stop stop' : Nat} (h : OpensAt document start stop)
    (h' : OpensAt document start stop') : stop = stop' := by
  obtain ⟨opening, ho, hs⟩ := h
  obtain ⟨opening', ho', hs'⟩ := h'
  obtain ⟨before, after, rfl, hb, rfl⟩ := slice?_eq_some_iff.1 hs
  obtain ⟨before', after', hd, hb', rfl⟩ := slice?_eq_some_iff.1 hs'
  rw [List.append_assoc, List.append_assoc] at hd
  have heq := (append_inj_of_byteLength hd (hb.trans hb'.symm)).2
  have := opening?_append ho after
  rw [heq, opening?_append ho'] at this
  rw [(Prod.mk.inj (Option.some.inj this)).1]

theorem IsFence.unique {document : Text} {block block' : Block} (h : IsFence document block)
    (h' : IsFence document block') (hstart : block.start = block'.start) : block = block' := by
  obtain ⟨inside, ticks, body, hopen, hbody, hticks, hfirst, hstop, hcontent⟩ := h.parts
  obtain ⟨inside', ticks', body', hopen', hbody', hticks', hfirst', hstop', hcontent'⟩ := h'.parts
  obtain rfl : inside = inside' := hopen.unique (hstart ▸ hopen')
  obtain rfl : ticks = ticks' :=
    Nat.le_antisymm (hfirst ticks' (le_of_slice? hbody').1 hticks')
      (hfirst' ticks (le_of_slice? hbody).1 hticks)
  obtain rfl : body = body' := Option.some.inj (hbody.symm.trans hbody')
  have hsame : block.content = block'.content := hcontent.eq_trim.trans hcontent'.eq_trim.symm
  have hfull := h.held
  rw [hstart, hstop, ← hstop', h'.held] at hfull
  cases block
  cases block'
  simp_all

/-- `AreFences` holds of one list of blocks at most. -/
theorem AreFences.unique {document : Text} {cursor : Nat} {blocks blocks' : List Block}
    (h : AreFences document cursor blocks) (h' : AreFences document cursor blocks') :
    blocks = blocks' := by
  have noFence : ∀ {cursor : Nat} {block : Block}, AreFences document cursor [] →
      cursor ≤ block.start → ¬ IsFence document block := fun hnil hle hf => by
    obtain ⟨inside, ticks, body, hopen, hbody, hticks, -⟩ := hf.parts
    exact hnil.tail _ _ _ hle hopen (le_of_slice? hbody).1 hticks
  induction blocks generalizing cursor blocks' with
  | nil =>
    cases blocks' with
    | nil => rfl
    | cons block' blocks' =>
      obtain ⟨hf, hle, -⟩ := areFences_cons.1 h'
      exact absurd hf (noFence h hle)
  | cons block blocks ih =>
    obtain ⟨hf, hle, hg, hs⟩ := areFences_cons.1 h
    cases blocks' with
    | nil => exact absurd hf (noFence h' hle)
    | cons block' blocks' =>
      obtain ⟨hf', hle', hg', hs'⟩ := areFences_cons.1 h'
      obtain ⟨_, _, _, hopen, -⟩ := hf.parts
      obtain ⟨_, _, _, hopen', -⟩ := hf'.parts
      have hstart : block.start = block'.start := by
        rcases Nat.lt_trichotomy block.start block'.start with hlt | heq | hgt
        · exact absurd hopen (hg' _ _ hle hlt)
        · exact heq
        · exact absurd hopen' (hg _ _ hle' hgt)
      obtain rfl := hf.unique hf' hstart
      rw [ih hs hs']

/-! ## The blocks of a layout are its fences -/

theorem Segment.IsSound.isFence {s : Segment} (h : s.IsSound) {document front more : Text}
    (hd : document = front ++ s.fence ++ more) :
    IsFence document (s.block (byteLength front)) where
  held := hd ▸ slice?_append front s.fence more
  start_lt_stop := by
    have : 0 < byteLength closing := by decide
    simp only [Segment.block_start, Segment.block_stop, Segment.fence, byteLength_append]
    omega
  parts := by
    have hclosing : byteLength closing = 3 := by decide
    have hlist : document = front ++ s.opening ++ s.body ++ closing ++ more := by
      rw [hd]
      simp [Segment.fence]
    refine ⟨byteLength (front ++ s.opening), byteLength (front ++ s.opening ++ s.body), s.body,
      ⟨s.opening, h.opening, ?_⟩, ?_, ?_, ?_, ?_, trimsTo_trim s.body⟩
    · exact slice?_eq_some_iff.2 ⟨front, s.body ++ closing ++ more, by simp [hlist], rfl, by simp⟩
    · exact slice?_eq_some_iff.2
        ⟨front ++ s.opening, closing ++ more, by simp [hlist], rfl, (byteLength_append _ _).symm⟩
    · exact slice?_eq_some_iff.2 ⟨front ++ s.opening ++ s.body, more, hlist, rfl, by rw [hclosing]⟩
    · intro position hle hticks
      obtain ⟨before, after, hb, rfl, -⟩ := slice?_eq_some_iff.1 hticks
      have hsplit : front ++ s.opening ++ (s.body ++ closing ++ more) = before ++ (closing ++ after) := by
        rw [← List.append_assoc before, ← hb, hlist]
        simp
      obtain ⟨m, rfl, hm⟩ := append_eq_append_of_le hsplit hle
      obtain ⟨n, hn⟩ : s.body <+: m :=
        h.body.prefix_of_append (hm.trans (List.append_assoc m closing after).symm)
      rw [← hn]
      simp only [byteLength_append]
      omega
    · simp only [Segment.block_stop, Segment.fence, byteLength_append, hclosing]
      omega

theorem areFences_blocksOf {segments : List Segment} {document tail : Text} (front : Text)
    (hs : ∀ s ∈ segments, s.IsSound) (ht : IsPlain tail)
    (hd : document = front ++ assemble tail segments) :
    AreFences document (byteLength front) (blocksOf (byteLength front) segments) := by
  induction segments generalizing front with
  | nil =>
    refine areFences_nil.2 fun start stop ticks hle ⟨opening, ho, hopen⟩ hstop hticks => ?_
    obtain ⟨before, after, hb, rfl, rfl⟩ := slice?_eq_some_iff.1 hopen
    obtain ⟨before', after', hb', rfl, -⟩ := slice?_eq_some_iff.1 hticks
    obtain ⟨a, rfl, ha⟩ := append_eq_append_of_le (v := opening ++ after)
      (by rw [← hd, hb, List.append_assoc]) hle
    obtain ⟨m, rfl, hm⟩ := append_eq_append_of_le (s := front ++ a ++ opening) (t := after)
      (v := closing ++ after') (by rw [← hb, hb', List.append_assoc]) (by rwa [byteLength_append])
    exact not_closing_infix_of_fence? ho (ht a _ ha) ⟨m, after', by rw [hm, ← List.append_assoc]⟩
  | cons s segments ih =>
    obtain ⟨hsound, hrest⟩ := List.forall_mem_cons.1 hs
    have hd' : document = front ++ s.gap ++ s.fence ++ assemble tail segments := by
      rw [hd, append_assemble_cons]
    rw [blocksOf, areFences_cons, stop_block_gap]
    refine ⟨?_, Nat.le_add_right _ _, fun start stop hle hlt ⟨opening, ho, hopen⟩ => ?_, ?_⟩
    · simpa only [byteLength_append] using hsound.isFence hd'
    · obtain ⟨before, after, hb, rfl, -⟩ := slice?_eq_some_iff.1 hopen
      obtain ⟨a, rfl, ha⟩ := append_eq_append_of_le (t := s.gap ++ (s.fence ++ assemble tail segments))
        (v := opening ++ after) (by rw [← List.append_assoc before, ← hb, hd']; simp) hle
      have hlt : byteLength a < byteLength s.gap := by
        rw [byteLength_append] at hlt
        exact Nat.lt_of_add_lt_add_left hlt
      obtain ⟨b, hgap, hb'⟩ := append_eq_append_of_le ha.symm (Nat.le_of_lt hlt)
      have hne : b ≠ [] := by
        rintro rfl
        simp [hgap] at hlt
      have := hsound.opening?_gap hgap hne (assemble tail segments)
      rw [← hb', opening?_append ho] at this
      cases this
    · exact ih _ hrest hd'

theorem areFences_extract (document : Text) : AreFences document 0 (extract document) := by
  obtain ⟨segments, tail, rfl, hs, ht⟩ := exists_layout document
  rw [extract, blocksFrom_assemble hs ht]
  exact areFences_blocksOf [] hs ht rfl

/-- **`extract` gives exactly the fences of the document.** -/
theorem extract_eq_iff_areFences (document : Text) (blocks : List Block) :
    extract document = blocks ↔ AreFences document 0 blocks :=
  ⟨fun h => h ▸ areFences_extract document, fun h => (areFences_extract document).unique h⟩

end MermaidPress.Document
