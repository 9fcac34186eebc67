/-
A document as its fences lay it out: segments, each of plain text and the fence behind it, and
a tail. A layout is sound when no fence begins in the plain parts and each body closes at the
first three ticks. Every document has a sound layout, and the scan of a document with a
sound layout gives the blocks of the layout; so facts about the scan are facts about layouts,
where no offsets occur.

Soundness of a segment speaks of the segment alone. An opening is shorter than thirteen
characters, so one that begins in the plain part cannot reach behind the opening that follows.
-/
import MermaidPress.Proofs.Document.Placement
import MermaidPress.Proofs.Text.Occurrence

namespace MermaidPress.Document

open Text

/-! ## Openings -/

/-- Three ticks, the word `mermaid` and a line break. -/
def IsOpening (t : Text) : Prop := t = openingWord ++ ['\n'] ∨ t = openingWord ++ ['\r', '\n']

theorem IsOpening.length {t : Text} (h : IsOpening t) : t.length = 11 ∨ t.length = 12 := by
  rcases h with rfl | rfl
  · exact .inl rfl
  · exact .inr rfl

theorem opening?_append {opening : Text} (h : IsOpening opening) (rest : Text) :
    opening? (opening ++ rest) = some (opening, rest) := by
  rcases h with rfl | rfl <;>
  · unfold opening?
    rw [List.append_assoc, after?_append]
    rfl

theorem isOpening_of_opening? {t opening rest : Text} (h : opening? t = some (opening, rest)) :
    IsOpening opening := by
  unfold opening? at h
  split at h
  · obtain ⟨rfl, -⟩ := Prod.mk.inj (Option.some.inj h)
    exact .inl rfl
  · obtain ⟨rfl, -⟩ := Prod.mk.inj (Option.some.inj h)
    exact .inr rfl
  · cases h

theorem opening?_eq_some_iff {t opening rest : Text} :
    opening? t = some (opening, rest) ↔ t = opening ++ rest ∧ IsOpening opening :=
  ⟨fun h => ⟨(eq_append_of_opening? h).1, isOpening_of_opening? h⟩,
    fun ⟨ht, h⟩ => ht ▸ opening?_append h rest⟩

theorem opening?_append_eq_none {t : Text} (h : opening? t = none) (hlen : 12 ≤ t.length)
    (more : Text) : opening? (t ++ more) = none := by
  refine Option.eq_none_iff_forall_ne_some.2 fun (opening, rest) hsome => ?_
  obtain ⟨hrest, ho⟩ := opening?_eq_some_iff.1 hsome
  have := ho.length
  obtain ⟨m, rfl⟩ : opening <+: t :=
    List.prefix_of_prefix_length_le ⟨rest, hrest.symm⟩ ⟨more, rfl⟩ (by omega)
  rw [opening?_append ho] at h
  cases h

theorem fence?_append {opening body : Text} (ho : IsOpening opening) (hb : EndsFirst closing body)
    (rest : Text) :
    fence? (opening ++ body ++ closing ++ rest) = some (opening, body, rest) := by
  unfold fence?
  rw [List.append_assoc opening, List.append_assoc opening, opening?_append ho]
  simp only [cut?_append hb, Option.map_some]

theorem fence?_eq_some_iff {t opening body rest : Text} :
    fence? t = some (opening, body, rest) ↔
      t = opening ++ body ++ closing ++ rest ∧ IsOpening opening ∧ EndsFirst closing body := by
  constructor
  · intro h
    refine ⟨(eq_append_of_fence? h).1, ?_⟩
    unfold fence? at h
    split at h
    · cases h
    · rename_i ho
      obtain ⟨⟨b, r⟩, hc, heq⟩ := Option.map_eq_some_iff.1 h
      simp only [Prod.mk.injEq] at heq
      obtain ⟨rfl, rfl, rfl⟩ := heq
      exact ⟨isOpening_of_opening? ho, endsFirst_of_cut? hc⟩
  · rintro ⟨rfl, ho, hb⟩
    exact fence?_append ho hb rest

theorem fence?_eq_none_of_opening? {t : Text} (h : opening? t = none) : fence? t = none := by
  unfold fence?
  rw [h]

/-- An opening that is no fence has no three ticks behind it. -/
theorem not_closing_infix_of_fence? {opening rest : Text} (ho : IsOpening opening)
    (h : fence? (opening ++ rest) = none) : ¬ closing <:+: rest := by
  unfold fence? at h
  rw [opening?_append ho] at h
  exact cut?_eq_none_iff.1 (Option.map_eq_none_iff.1 h)

/-! ## Layouts -/

/-- A fence with the plain text before it. -/
structure Segment where
  gap : Text
  opening : Text
  body : Text

/-- The fence of the segment. -/
def Segment.fence (s : Segment) : Text := s.opening ++ s.body ++ closing

/-- What makes a segment one of a scan: its `gap` begins no opening, and its `body` ends at the
first three ticks. -/
structure Segment.IsSound (s : Segment) : Prop where
  opening : IsOpening s.opening
  body : EndsFirst closing s.body
  gap : ∀ a b, s.gap = a ++ b → b ≠ [] → opening? (b ++ s.opening) = none

/-- No fence begins in the text. -/
def IsPlain (t : Text) : Prop := ∀ a b, t = a ++ b → fence? b = none

/-- The text of `segments` with `tail` behind them. -/
def assemble (tail : Text) : List Segment → Text
  | [] => tail
  | s :: segments => s.gap ++ s.fence ++ assemble tail segments

/-- The block of the segment's fence, where that begins at byte `start`. -/
def Segment.block (s : Segment) (start : Nat) : Block :=
  { content := trim s.body, start, stop := start + byteLength s.fence, full := s.fence }

@[simp] theorem Segment.block_start (s : Segment) (start : Nat) : (s.block start).start = start := rfl

@[simp] theorem Segment.block_stop (s : Segment) (start : Nat) :
    (s.block start).stop = start + byteLength s.fence := rfl

/-- The blocks of segments that begin at byte `offset`. -/
def blocksOf (offset : Nat) : List Segment → List Block
  | [] => []
  | s :: segments =>
    let block := s.block (offset + byteLength s.gap)
    block :: blocksOf block.stop segments

theorem exists_of_mem_blocksOf {block : Block} {segments : List Segment} {offset : Nat}
    (h : block ∈ blocksOf offset segments) : ∃ s start, s ∈ segments ∧ block = s.block start := by
  induction segments generalizing offset with
  | nil => cases h
  | cons s segments ih =>
    rcases List.mem_cons.1 h with rfl | h
    · exact ⟨s, _, List.mem_cons_self, rfl⟩
    · obtain ⟨s', start, hmem, rfl⟩ := ih h
      exact ⟨s', start, List.mem_cons_of_mem s hmem, rfl⟩

theorem append_assemble_cons (s : Segment) (segments : List Segment) (front tail : Text) :
    front ++ assemble tail (s :: segments) =
      front ++ s.gap ++ s.fence ++ assemble tail segments := by
  simp [assemble]

theorem stop_block_gap (s : Segment) (front : Text) :
    (s.block (byteLength front + byteLength s.gap)).stop =
      byteLength (front ++ s.gap ++ s.fence) := by
  simp [Nat.add_assoc]

theorem Segment.IsSound.opening?_gap {s : Segment} (h : s.IsSound) {a b : Text}
    (hg : s.gap = a ++ b) (hb : b ≠ []) (more : Text) :
    opening? (b ++ (s.fence ++ more)) = none := by
  have hlen : 12 ≤ (b ++ s.opening).length := by
    have := List.length_pos_iff.2 hb
    have := h.opening.length
    rw [List.length_append]
    omega
  have := opening?_append_eq_none (h.gap a b hg hb) hlen (s.body ++ closing ++ more)
  simpa [Segment.fence] using this

/-! ## The scan of a layout -/

theorem blocksFrom_of_fence? {t opening body rest : Text}
    (h : fence? t = some (opening, body, rest)) (offset : Nat) :
    blocksFrom offset t =
      { content := trim body, start := offset,
        stop := offset + byteLength (opening ++ body ++ closing),
        full := opening ++ body ++ closing } ::
        blocksFrom (offset + byteLength (opening ++ body ++ closing)) rest := by
  rw [blocksFrom]
  split
  · rename_i h'
    simp only [h, Option.some.injEq, Prod.mk.injEq] at h'
    obtain ⟨rfl, rfl, rfl⟩ := h'
    rfl
  · rename_i h'
    rw [h] at h'
    cases h'

theorem blocksFrom_of_not_fence {c : Char} {t : Text} (h : fence? (c :: t) = none) (offset : Nat) :
    blocksFrom offset (c :: t) = blocksFrom (offset + c.utf8Size) t := by
  rw [blocksFrom]
  split
  · rename_i h'
    rw [h] at h'
    cases h'
  · rfl

/-- `blocksFrom` passes over text in which no fence begins. -/
theorem blocksFrom_append {gap more : Text}
    (h : ∀ a b, gap = a ++ b → b ≠ [] → fence? (b ++ more) = none) (offset : Nat) :
    blocksFrom offset (gap ++ more) = blocksFrom (offset + byteLength gap) more := by
  induction gap generalizing offset with
  | nil => rfl
  | cons c gap ih =>
    have hc : fence? (c :: (gap ++ more)) = none := h [] (c :: gap) rfl (by simp)
    rw [List.cons_append, blocksFrom_of_not_fence hc,
      ih fun a b hab hb => h (c :: a) b (by simp [hab]) hb, byteLength_cons, Nat.add_assoc]

theorem IsPlain.blocksFrom_eq_nil {t : Text} (h : IsPlain t) (offset : Nat) :
    blocksFrom offset t = [] := by
  rw [← List.append_nil t, blocksFrom_append fun a b hab _ => by
    rw [List.append_nil]
    exact h a b hab]
  rw [blocksFrom]
  rfl

/-- `blocksFrom` reads a sound layout back. -/
theorem blocksFrom_assemble {segments : List Segment} {tail : Text}
    (hs : ∀ s ∈ segments, s.IsSound) (ht : IsPlain tail) (offset : Nat) :
    blocksFrom offset (assemble tail segments) = blocksOf offset segments := by
  induction segments generalizing offset with
  | nil => exact ht.blocksFrom_eq_nil offset
  | cons s segments ih =>
    obtain ⟨hsound, hrest⟩ := List.forall_mem_cons.1 hs
    have hfence : fence? (s.fence ++ assemble tail segments) =
        some (s.opening, s.body, assemble tail segments) :=
      fence?_append hsound.opening hsound.body _
    rw [assemble, List.append_assoc, blocksFrom_append fun a b hab hb =>
      fence?_eq_none_of_opening? (hsound.opening?_gap hab hb _),
      blocksFrom_of_fence? hfence, ih hrest]
    rfl

/-! ## The layout of a document -/

theorem isPlain_cons {c : Char} {t : Text} (h : IsPlain t) (hc : fence? (c :: t) = none) :
    IsPlain (c :: t) := by
  rintro (_ | ⟨d, a⟩) b hab
  · obtain rfl : c :: t = b := hab
    exact hc
  · exact h a b (List.cons.inj hab).2

theorem Segment.IsSound.cons {s : Segment} (h : s.IsSound) {c : Char} {more : Text}
    (hc : fence? (c :: (s.gap ++ s.fence ++ more)) = none) :
    Segment.IsSound { s with gap := c :: s.gap } where
  opening := h.opening
  body := h.body
  gap := by
    rintro (_ | ⟨d, a⟩) b hab hb
    · obtain rfl : c :: s.gap = b := hab
      refine Option.eq_none_iff_forall_ne_some.2 fun (opening, rest) hsome => ?_
      obtain ⟨hrest, ho⟩ := opening?_eq_some_iff.1 hsome
      -- the ticks that close the fence are behind the opening that begins here
      have hfence : fence? (opening ++ (rest ++ s.body ++ closing ++ more)) = none := by
        rw [← hc, ← List.append_assoc, ← List.append_assoc, ← List.append_assoc, ← hrest]
        simp [Segment.fence]
      exact not_closing_infix_of_fence? ho hfence ⟨rest ++ s.body, more, by simp⟩
    · exact h.gap a b (List.cons.inj hab).2 hb

/-- **Every document has a sound layout**: it is what `assemble` makes of its segments and its
tail. -/
theorem exists_layout (t : Text) : ∃ segments tail, t = assemble tail segments ∧
    (∀ s ∈ segments, s.IsSound) ∧ IsPlain tail := by
  fun_induction blocksFrom 0 t with
  | case1 offset t opening body rest hf full stop ih =>
    obtain ⟨segments, tail, rfl, hs, ht⟩ := ih
    obtain ⟨rfl, ho, hb⟩ := fence?_eq_some_iff.1 hf
    refine ⟨⟨[], opening, body⟩ :: segments, tail, rfl, List.forall_mem_cons.2 ⟨⟨ho, hb, ?_⟩, hs⟩, ht⟩
    intro a b hab hne
    exact absurd (List.append_eq_nil_iff.1 hab.symm).2 hne
  | case2 offset hf =>
    refine ⟨[], [], rfl, by simp, fun a b hab => ?_⟩
    rw [(List.append_eq_nil_iff.1 hab.symm).2]
    rfl
  | case3 offset c t hf ih =>
    obtain ⟨segments, tail, rfl, hs, ht⟩ := ih
    cases segments with
    | nil => exact ⟨[], c :: tail, rfl, by simp, isPlain_cons ht hf⟩
    | cons s segments =>
      obtain ⟨hsound, hrest⟩ := List.forall_mem_cons.1 hs
      exact ⟨{ s with gap := c :: s.gap } :: segments, tail, rfl,
        List.forall_mem_cons.2 ⟨hsound.cons hf, hrest⟩, ht⟩

end MermaidPress.Document
