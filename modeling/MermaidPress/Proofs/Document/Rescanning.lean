/-
Scanning a document again after its blocks were replaced. New contents come out again, each from
its own fence and at the place to which the lengths before it have moved it. Texts in which
no opening begins, and none that is cut off before them can end, leave no fence at all: all that
the first scan passed over stays passed over. And however bad new contents are, the first opening
stays one, and there are ticks behind it; so a document that has fences keeps at least one.
-/
import MermaidPress.Document.Naming
import MermaidPress.Proofs.Document.Contents

namespace MermaidPress.Document

open Text

/-! ## New contents -/

/-- By how many bytes a fence grows with `content` in it. -/
def Block.growth (block : Block) (content : Text) : Int :=
  (byteLength (block.withContent content) : Int) - byteLength block.full

theorem Segment.IsSound.growth_block {s : Segment} (h : s.IsSound) (start : Nat) (content : Text) :
    (s.block start).growth content =
      (byteLength (s.withContent content).fence : Int) - byteLength s.fence := by
  rw [Block.growth, h.withContent_block]
  rfl

/-- Each new content is in its own fence, which has moved by the growth of those before it. -/
theorem blocksOf_withContent {segments : List Segment} (hs : ∀ s ∈ segments, s.IsSound)
    {contents : List Text} {offset offset' i : Nat} {old new : Block} {content : Text}
    (hold : (blocksOf offset segments)[i]? = some old) (hcontent : contents[i]? = some content)
    (hnew : (blocksOf offset' (segments.zipWith Segment.withContent contents))[i]? = some new) :
    new.content = trim content ∧ new.full = old.withContent content ∧
      (new.start : Int) = old.start + (offset' - offset) +
        (((blocksOf offset segments).zipWith Block.growth contents).take i).foldr (· + ·) 0 := by
  induction segments generalizing offset offset' i contents with
  | nil => simp [blocksOf] at hold
  | cons s segments ih =>
    obtain ⟨hsound, hrest⟩ := List.forall_mem_cons.1 hs
    cases contents with
    | nil => simp at hcontent
    | cons c contents =>
      rw [blocksOf] at hold
      rw [List.zipWith_cons_cons, blocksOf] at hnew
      cases i with
      | zero =>
        simp only [List.getElem?_cons_zero, Option.some.injEq] at hold hcontent hnew
        subst hold hcontent hnew
        refine ⟨trim_body_withContent s c, (hsound.withContent_block _ c).symm, ?_⟩
        simp [Segment.withContent]
        omega
      | succ i =>
        simp only [List.getElem?_cons_succ] at hold hcontent hnew
        obtain ⟨hc, hf, hstart⟩ := ih hrest hold hcontent hnew
        refine ⟨hc, hf, ?_⟩
        rw [blocksOf, List.zipWith_cons_cons, List.take_succ_cons, List.foldr_cons,
          hsound.growth_block, hstart]
        simp only [Segment.block_stop, Segment.withContent]
        push_cast
        omega

/-- **New contents come out again.** Where no content has three ticks or ends in one,
`replaceBlocks` succeeds for the contents of a document, and `extract` finds as many blocks in the
result as before: each has its new content, trimmed, and its new fence, and begins where the block
before it did, moved by what the fences in front of it have grown. -/
theorem extract_replaceBlocks_withContent (document : Text) (contents : List Text)
    (hlen : contents.length = (extract document).length)
    (hcontents : ∀ content ∈ contents, ¬ closing <:+: content ∧ content.getLast? ≠ some '`') :
    ∃ changed, replaceBlocks document (extract document)
        ((extract document).zipWith Block.withContent contents) = .ok changed ∧
      (extract changed).length = (extract document).length ∧
      ∀ (i : Nat) (old new : Block) (content : Text), (extract document)[i]? = some old →
        contents[i]? = some content → (extract changed)[i]? = some new →
        new.content = trim content ∧ new.full = old.withContent content ∧
          (new.start : Int) = old.start +
            (((extract document).zipWith Block.growth contents).take i).foldr (· + ·) 0 := by
  obtain ⟨segments, tail, rfl, hs, ht⟩ := exists_layout document
  rw [extract_assemble hs ht] at hlen ⊢
  rw [length_blocksOf] at hlen
  have hnew : ∀ s ∈ segments.zipWith Segment.withContent contents, s.IsSound := fun s hmem => by
    obtain ⟨i, hi, rfl⟩ := List.getElem_of_mem hmem
    rw [List.getElem_zipWith]
    obtain ⟨hticks, hlast⟩ := hcontents _ (List.getElem_mem _)
    exact (hs _ (List.getElem_mem _)).withContent hticks fun h => absurd h hlast
  refine ⟨_, replaceBlocks_withContent hs ht hlen.symm, ?_, ?_⟩
  · rw [extract_assemble hnew ht]
    simp [hlen]
  · rw [extract_assemble hnew ht]
    intro i old new content hold hcontent hi
    simpa using blocksOf_withContent hs hold hcontent hi

/-- Two fences, with a letter of two bytes before them. -/
def twoFences : Text := "ä\n```mermaid\n A \n```\n```mermaid\r\nB\n```".toList

theorem extract_two_new_contents : ∃ changed new,
    replaceBlocks twoFences (extract twoFences)
        ((extract twoFences).zipWith Block.withContent ["``ö` x ".toList, []]) = .ok changed ∧
      (extract changed)[1]? = some new ∧ new.content = [] ∧
      new.full = "```mermaid\r\n\n```".toList ∧ new.start = 29 := by
  obtain ⟨changed, hrun, hlen, hblocks⟩ := extract_replaceBlocks_withContent twoFences
    ["``ö` x ".toList, []] (by decide +kernel) (by decide +kernel)
  have hsecond : (extract twoFences)[1]? =
      some ⟨"B".toList, 22, 39, "```mermaid\r\nB\n```".toList⟩ := by decide +kernel
  have htwo : (extract twoFences).length = 2 := by decide +kernel
  have hi : 1 < (extract changed).length := by omega
  obtain ⟨hcontent, hfull, hstart⟩ :=
    hblocks 1 _ _ [] hsecond rfl (List.getElem?_eq_getElem hi)
  have hgrowth : (((extract twoFences).zipWith Block.growth ["``ö` x ".toList, []]).take 1).foldr
      (· + ·) 0 = 7 := by decide +kernel
  refine ⟨changed, _, hrun, List.getElem?_eq_getElem hi, hcontent, hfull.trans ?_, ?_⟩
  · decide +kernel
  · dsimp only at hstart
    omega

/-! ## No fence -/

theorem isPlain_of_blocksFrom_eq_nil {offset : Nat} {t : Text} (h : blocksFrom offset t = []) :
    IsPlain t := by
  fun_induction blocksFrom offset t with
  | case1 => cases h
  | case2 offset hf =>
    intro a b hab
    rw [(List.append_eq_nil_iff.1 hab.symm).2]
    exact hf
  | case3 offset c t hf ih => exact isPlain_cons (ih h) hf

theorem extract_eq_nil_iff {t : Text} : extract t = [] ↔ IsPlain t :=
  ⟨isPlain_of_blocksFrom_eq_nil, fun h => h.blocksFrom_eq_nil 0⟩

theorem isPlain_append {front more : Text}
    (h : ∀ a b, front = a ++ b → b ≠ [] → fence? (b ++ more) = none) (hmore : IsPlain more) :
    IsPlain (front ++ more) := by
  intro a b hab
  rcases List.append_eq_append_iff.1 hab with ⟨m, -, hm⟩ | ⟨m, hm, rfl⟩
  · exact hmore m b hm
  · cases m with
    | nil => exact hmore [] more rfl
    | cons c m => exact h a (c :: m) hm (List.cons_ne_nil c m)

/-- No opening begins in the text, and none that begins before it reaches into it. -/
structure BarsOpenings (t : Text) : Prop where
  tick : '`' ∉ t
  front : ∃ c rest, t = c :: rest ∧ ∀ opening, IsOpening opening → c ∉ opening

theorem opening?_eq_none_of_notMem {t : Text} (ht : '`' ∉ t) (hne : t ≠ []) (more : Text) :
    opening? (t ++ more) = none := by
  refine Option.eq_none_iff_forall_ne_some.2 fun (opening, rest) hsome => ?_
  obtain ⟨hrest, ho⟩ := opening?_eq_some_iff.1 hsome
  obtain ⟨c, t, rfl⟩ := List.exists_cons_of_ne_nil hne
  have hc : c = '`' := by
    rcases ho with rfl | rfl
    · exact (List.cons.inj hrest).1
    · exact (List.cons.inj hrest).1
  exact ht (hc ▸ List.mem_cons_self)

theorem Segment.IsSound.opening?_gap_append {s : Segment} (h : s.IsSound) {a b t : Text}
    (hg : s.gap = a ++ b) (hb : b ≠ []) (ht : BarsOpenings t) (more : Text) :
    opening? (b ++ (t ++ more)) = none := by
  obtain ⟨c, t, rfl, hc⟩ := ht.front
  refine Option.eq_none_iff_forall_ne_some.2 fun (opening, rest) hsome => ?_
  obtain ⟨hrest, ho⟩ := opening?_eq_some_iff.1 hsome
  have hgap := h.gap a b hg hb
  rcases List.append_eq_append_iff.1 hrest with ⟨m, hm, hrest⟩ | ⟨m, rfl, -⟩
  · cases m with
    | nil =>
      rw [List.append_nil] at hm
      rw [← hm, opening?_append ho] at hgap
      cases hgap
    | cons d m =>
      obtain ⟨rfl, -⟩ := List.cons.inj hrest
      exact hc opening ho (by simp [hm])
  · rw [List.append_assoc, opening?_append ho] at hgap
    cases hgap

/-- What a scan passed over stays passed over where the fences give way to texts with
`BarsOpenings`. -/
theorem isPlain_weave {segments : List Segment} {tail : Text} (hs : ∀ s ∈ segments, s.IsSound)
    (ht : IsPlain tail) {replacements : List Text} (h : ∀ t ∈ replacements, BarsOpenings t) :
    IsPlain (weave tail segments replacements) := by
  induction segments generalizing replacements with
  | nil => exact ht
  | cons s segments ih =>
    obtain ⟨hsound, hrest⟩ := List.forall_mem_cons.1 hs
    cases replacements with
    | nil => exact ht
    | cons t replacements =>
      obtain ⟨hbars, hothers⟩ := List.forall_mem_cons.1 h
      refine isPlain_append (fun a b hab hb => fence?_eq_none_of_opening? ?_) (ih hrest hothers)
      have inside : ∀ m, t = m ++ b → opening? (b ++ weave tail segments replacements) = none :=
        fun m hm => opening?_eq_none_of_notMem
          (fun hmem => hbars.tick (hm ▸ List.mem_append_right m hmem)) hb _
      rcases List.append_eq_append_iff.1 hab with ⟨m, -, hm⟩ | ⟨m, hm, rfl⟩
      · exact inside m hm
      · cases m with
        | nil => exact inside [] rfl
        | cons c m =>
          rw [List.append_assoc]
          exact hsound.opening?_gap_append hm (List.cons_ne_nil c m) hbars _

theorem extract_splice_eq_nil {document : Text} {replacements : List Text}
    (hlen : (extract document).length = replacements.length)
    (h : ∀ t ∈ replacements, BarsOpenings t) :
    extract (splice document (extract document) replacements) = [] := by
  obtain ⟨segments, tail, rfl, hs, ht⟩ := exists_layout document
  have hblocks := extract_assemble hs ht
  rw [hblocks, length_blocksOf] at hlen
  have hsplice : splice (assemble tail segments) (blocksOf 0 segments) replacements =
      weave tail segments replacements := spliceFrom_blocksOf [] hlen
  rw [hblocks, hsplice, extract_eq_nil_iff]
  exact isPlain_weave hs ht h

theorem tick_notMem_digits (n : Nat) : '`' ∉ digits n := fun hmem => by
  have hdigit : '`'.isDigit = true :=
    Nat.isDigit_of_mem_toDigits (b := 10) (n := n) (by decide) (by decide) hmem
  cases hdigit

theorem barsOpenings_imageReference {path : Text} (h : '`' ∉ path) (index : Nat) :
    BarsOpenings (imageReference index path) where
  tick hmem := by
    unfold imageReference at hmem
    rw [List.mem_append, List.mem_append, List.mem_append, List.mem_append] at hmem
    rcases hmem with (((hmem | hmem) | hmem) | hmem) | hmem
    · exact absurd hmem (by decide)
    · exact tick_notMem_digits index hmem
    · exact absurd hmem (by decide)
    · exact h hmem
    · exact absurd hmem (by decide)
  front := ⟨'!', _, rfl, by
    rintro _ (rfl | rfl)
    · decide
    · decide⟩

/-! ## At least one fence -/

/-- A document with fences keeps one, whatever contents its fences are given: the first opening is
still there, and so are the ticks that closed it. -/
theorem extract_splice_withContent_ne_nil {document : Text} (hne : extract document ≠ [])
    {contents : List Text} (hlen : (extract document).length = contents.length) :
    extract (splice document (extract document)
      ((extract document).zipWith Block.withContent contents)) ≠ [] := by
  have hrun : replaceBlocks document (extract document)
      ((extract document).zipWith Block.withContent contents) = .ok _ :=
    replaceBlocks_extract (by simp [hlen])
  obtain ⟨segments, tail, rfl, hs, ht⟩ := exists_layout document
  rw [extract_assemble hs ht] at hne hlen hrun ⊢
  rw [length_blocksOf] at hlen
  rw [replaceBlocks_withContent hs ht hlen] at hrun
  rw [← Except.ok.inj hrun]
  cases segments with
  | nil => exact absurd rfl hne
  | cons s segments =>
    cases contents with
    | nil => cases hlen
    | cons c contents =>
      rw [Ne, extract_eq_nil_iff, List.zipWith_cons_cons, assemble]
      intro hplain
      have hfence := hplain s.gap _ (List.append_assoc _ _ _)
      rw [Segment.fence, List.append_assoc, List.append_assoc] at hfence
      have hticks := not_closing_infix_of_fence? (hs s List.mem_cons_self).opening hfence
      exact hticks ((List.prefix_append closing _).isInfix.trans (List.suffix_append _ _).isInfix)

end MermaidPress.Document
