/-
One blank on either side of every arrow. The pass that sees to this, `spaced`, takes an arrow with
all the blanks around it, so two arrows share the blanks between them; still its work stays done,
since what it leaves has an arrow only where the text had one. At the edges of a trimmed text the
pass puts a blank only where an arrow stands, and the pass does not mind when such a blank is
trimmed away.
-/
import Mathlib.Data.List.TakeWhile
import MermaidPress.Proofs.Diagram.Hit
import MermaidPress.Proofs.Text.Occurrence
import MermaidPress.Proofs.Text.Trim

namespace MermaidPress.Diagram

open Text

/-! ## Rules that make arrows -/

theorem trimLeft_arrow_append (rest : Text) : trimLeft (arrow ++ rest) = arrow ++ rest :=
  trimLeft_cons_of_not_blank (by decide) _

theorem trimLeft_spacedArrow_append (rest : Text) :
    trimLeft (spacedArrow ++ rest) = arrow ++ ' ' :: rest :=
  (trimLeft_cons_of_blank (by decide) _).trans (trimLeft_arrow_append (' ' :: rest))

theorem isBlank_of_mem_arrow : ∀ c ∈ arrow, isBlank c = false := fun c hc => by
  have hall : (arrow.all fun c => !isBlank c) = true := by decide
  simpa using List.all_eq_true.1 hall c hc

/-- The hits of `find` are arrows, and one `spacedArrow` takes the place of each. -/
def MakesArrows (find : (t : Text) → Option (Hit Unit t)) : Prop :=
  ∀ t hit, find t = some hit → arrow <+: trimLeft t ∧ hit.replacement = spacedArrow

namespace MakesArrows

variable {find : (t : Text) → Option (Hit Unit t)} {t w : Text}

theorem eq_none (h : MakesArrows find) (ht : ¬ arrow <+: trimLeft t) : find t = none :=
  Option.eq_none_iff_forall_ne_some.2 fun hit hhit => ht (h t hit hhit).1

theorem prefix_of_prefix (h : MakesArrows find) (hw : ∀ c ∈ w, isBlank c = false)
    (hstarts : w <+: (replaceHits find t).1) : w <+: t := by
  induction t using replaceHits_induction find generalizing w with
  | nil => simpa [replaceHits] using hstarts
  | hit t hit hhit ih =>
    cases w with
    | nil => exact List.nil_prefix
    | cons d w =>
      rw [fst_replaceHits_of_hit hhit, (h t hit hhit).2] at hstarts
      obtain ⟨rfl, -⟩ := List.cons_prefix_cons.1 hstarts
      cases hw ' ' List.mem_cons_self
  | other c t hnone ih =>
    cases w with
    | nil => exact List.nil_prefix
    | cons d w =>
      rw [fst_replaceHits_of_none hnone] at hstarts
      obtain ⟨rfl, htail⟩ := List.cons_prefix_cons.1 hstarts
      exact List.cons_prefix_cons.2 ⟨rfl, ih (List.forall_mem_cons.1 hw).2 htail⟩

theorem replaceHits_hyphen_head (h : MakesArrows find) (t : Text) :
    (replaceHits find ('-' :: '>' :: t)).1 = '-' :: '>' :: (replaceHits find t).1 := by
  have hhyphen : find ('-' :: '>' :: t) = none := h.eq_none (by
    rw [trimLeft_cons_of_not_blank (by decide)]
    simp [arrow])
  have hhead : find ('>' :: t) = none := h.eq_none (by
    rw [trimLeft_cons_of_not_blank (by decide)]
    simp [arrow])
  rw [fst_replaceHits_of_none hhyphen, fst_replaceHits_of_none hhead]

/-- An arrow that is not a hit stays. -/
theorem replaceHits_arrow_append (h : MakesArrows find) (hnone : find (arrow ++ t) = none) :
    (replaceHits find (arrow ++ t)).1 = arrow ++ (replaceHits find t).1 := by
  calc
    (replaceHits find ('-' :: '-' :: '>' :: t)).1
        = '-' :: (replaceHits find ('-' :: '>' :: t)).1 := fst_replaceHits_of_none hnone
    _ = '-' :: '-' :: '>' :: (replaceHits find t).1 := by rw [h.replaceHits_hyphen_head]

theorem head_prefix_iff (h : MakesArrows find) :
    ['>'] <+: trimLeft (replaceHits find t).1 ↔ ['>'] <+: trimLeft t := by
  induction t using replaceHits_induction find with
  | nil => simp [replaceHits]
  | hit t hit hhit ih =>
    obtain ⟨⟨rest, hrest⟩, hspaced⟩ := h t hit hhit
    rw [fst_replaceHits_of_hit hhit, hspaced, trimLeft_spacedArrow_append, ← hrest]
    simp [arrow]
  | other c t hnone ih =>
    rw [fst_replaceHits_of_none hnone]
    cases hc : isBlank c with
    | true => rwa [trimLeft_cons_of_blank hc, trimLeft_cons_of_blank hc]
    | false =>
      rw [trimLeft_cons_of_not_blank hc, trimLeft_cons_of_not_blank hc]
      simp

theorem arrow_prefix_iff (h : MakesArrows find) :
    arrow <+: trimLeft (replaceHits find t).1 ↔ arrow <+: trimLeft t := by
  induction t using replaceHits_induction find with
  | nil => simp [replaceHits]
  | hit t hit hhit ih =>
    obtain ⟨harrow, hspaced⟩ := h t hit hhit
    rw [fst_replaceHits_of_hit hhit, hspaced, trimLeft_spacedArrow_append]
    exact iff_of_true (List.prefix_append _ _) harrow
  | other c t hnone ih =>
    cases hc : isBlank c with
    | true =>
      rw [fst_replaceHits_of_none hnone, trimLeft_cons_of_blank hc, trimLeft_cons_of_blank hc, ih]
    | false =>
      rw [trimLeft_cons_of_not_blank hc]
      constructor
      · intro harrow
        rw [fst_replaceHits_of_none hnone, trimLeft_cons_of_not_blank hc,
          ← fst_replaceHits_of_none hnone] at harrow
        exact h.prefix_of_prefix isBlank_of_mem_arrow harrow
      · rintro ⟨rest, hrest⟩
        rw [← hrest] at hnone ⊢
        rw [h.replaceHits_arrow_append hnone, trimLeft_arrow_append]
        exact List.prefix_append _ _

end MakesArrows

theorem makesArrows_looseArrow? : MakesArrows looseArrow? := fun t hit h => by
  obtain ⟨rest, ht, -, hr⟩ := looseArrow?_eq_some h
  exact ⟨⟨rest, ht.symm⟩, hr⟩

theorem makesArrows_doubledArrow? : MakesArrows doubledArrow? := fun t hit h => by
  obtain ⟨u, rfl, -, hr⟩ := doubledArrow?_eq_some h
  rw [trimLeft_arrow_append]
  exact ⟨List.prefix_append arrow u, hr⟩

/-! ## The pass as a recursion -/

/-- The text with one blank on either side of every arrow. -/
def spaced (t : Text) : Text := (replaceHits looseArrow? t).1

theorem looseArrow?_eq_none_iff {t : Text} : looseArrow? t = none ↔ ¬ arrow <+: trimLeft t := by
  constructor
  · rintro h ⟨rest, hrest⟩
    unfold looseArrow? at h
    split at h
    · rename_i hnone
      rw [← hrest, afterArrow?, after?_append] at hnone
      cases hnone
    · cases h
  · exact makesArrows_looseArrow?.eq_none

@[simp] theorem spaced_nil : spaced [] = [] := by
  unfold spaced
  rw [replaceHits]

theorem spaced_of_arrow {t rest : Text} (h : trimLeft t = arrow ++ rest) :
    spaced t = spacedArrow ++ spaced (trimLeft rest) := by
  cases hhit : looseArrow? t with
  | none => exact absurd ⟨rest, h.symm⟩ (looseArrow?_eq_none_iff.1 hhit)
  | some hit =>
    obtain ⟨rest', ht, hrest, hr⟩ := looseArrow?_eq_some hhit
    obtain rfl : rest = rest' := List.append_cancel_left (h.symm.trans ht)
    unfold spaced
    rw [fst_replaceHits_of_hit hhit, hrest, hr]

theorem spaced_cons {c : Char} {t : Text} (h : ¬ arrow <+: trimLeft (c :: t)) :
    spaced (c :: t) = c :: spaced t := by
  unfold spaced
  rw [replaceHits_of_none (looseArrow?_eq_none_iff.2 h)]

/-- Induction along `spaced`: at an arrow it goes on behind the blanks that follow, and elsewhere
with the next character. -/
@[elab_as_elim]
theorem spaced_induction {P : Text → Prop} (nil : P [])
    (ahead : ∀ t rest, trimLeft t = arrow ++ rest → P (trimLeft rest) → P t)
    (other : ∀ c t, ¬ arrow <+: trimLeft (c :: t) → P t → P (c :: t)) (t : Text) : P t := by
  induction t using replaceHits_induction looseArrow? with
  | nil => exact nil
  | hit t hit hhit ih =>
    obtain ⟨rest, ht, hrest, -⟩ := looseArrow?_eq_some hhit
    exact ahead t rest ht (hrest ▸ ih)
  | other c t hnone ih => exact other c t (looseArrow?_eq_none_iff.1 hnone) ih

/-! ## Its work stays done -/

theorem arrow_prefix_of_spaced {t : Text} (h : arrow <+: trimLeft (spaced t)) :
    arrow <+: trimLeft t :=
  makesArrows_looseArrow?.arrow_prefix_iff.1 h

/-- `spaced` twice is `spaced` once, also where the blanks at the front go in between, unless the
text itself begins with blanks. -/
theorem spaced_spaced_and (t : Text) : spaced (spaced t) = spaced t ∧
    (trimLeft t = t → spaced (trimLeft (spaced t)) = spaced t) := by
  induction t using spaced_induction with
  | nil => exact ⟨by simp, fun _ => by simp [trimLeft]⟩
  | ahead t rest ht ih =>
    have hagain {u : Text} (hu : trimLeft u = arrow ++ ' ' :: spaced (trimLeft rest)) :
        spaced u = spaced t := by
      rw [spaced_of_arrow hu, trimLeft_cons_of_blank (by decide), ih.2 (trimLeft_trimLeft rest),
        ← spaced_of_arrow ht]
    have hfront : trimLeft (spaced t) = arrow ++ ' ' :: spaced (trimLeft rest) := by
      rw [spaced_of_arrow ht, trimLeft_spacedArrow_append]
    exact ⟨hagain hfront, fun _ => hagain ((trimLeft_trimLeft _).trans hfront)⟩
  | other c t hc ih =>
    have hsame : spaced (spaced (c :: t)) = spaced (c :: t) := by
      rw [spaced_cons hc, spaced_cons, ih.1]
      exact fun h => hc (arrow_prefix_of_spaced (spaced_cons hc ▸ h))
    refine ⟨hsame, fun htrim => ?_⟩
    have hblank : isBlank c = false := isBlank_of_head?_trimLeft (t := c :: t) (by rw [htrim]; rfl)
    have hfront : trimLeft (spaced (c :: t)) = spaced (c :: t) := by
      rw [spaced_cons hc, trimLeft_cons_of_not_blank hblank]
    rw [hfront, hsame]

theorem spaced_spaced (t : Text) : spaced (spaced t) = spaced t := (spaced_spaced_and t).1

/-! ## The edges -/

theorem arrow_suffix_trimLeft {t : Text} (h : arrow <:+ t) : arrow <:+ trimLeft t := by
  induction t with
  | nil => exact h
  | cons c t ih =>
    cases hblank : isBlank c with
    | true =>
      rw [trimLeft_cons_of_blank hblank]
      rcases List.suffix_cons_iff.1 h with heq | h
      · obtain ⟨rfl, -⟩ := List.cons.inj heq
        cases hblank
      · exact ih h
    | false => rwa [trimLeft_cons_of_not_blank hblank]

theorem arrow_suffix_of_cons {c : Char} {t : Text} (hc : ¬ arrow <+: trimLeft (c :: t))
    (h : arrow <:+ c :: t) : arrow <:+ t := by
  rcases List.suffix_cons_iff.1 h with heq | h
  · exact absurd (heq ▸ List.prefix_rfl) hc
  · exact h

theorem arrow_suffix_of_ahead {t rest : Text} (ht : trimLeft t = arrow ++ rest)
    (hrest : trimLeft rest ≠ []) (h : arrow <:+ t) : arrow <:+ trimLeft rest := by
  refine arrow_suffix_trimLeft ?_
  have hsuffix := arrow_suffix_trimLeft h
  rw [ht] at hsuffix
  obtain ⟨c, rest, rfl⟩ : ∃ c r, rest = c :: r :=
    List.exists_cons_of_ne_nil fun hnil => hrest (by rw [hnil]; rfl)
  -- the arrow at the front is not at the end, and no arrow begins with its hyphen or its head
  simpa [arrow, List.suffix_cons_iff] using hsuffix

theorem trimLeft_append_of_ne_nil {t : Text} (h : trimLeft t ≠ []) (more : Text) :
    trimLeft (t ++ more) = trimLeft t ++ more := by
  unfold trimLeft at h ⊢
  rw [List.dropWhile_append, if_neg (by simpa using h)]

/-- Blanks behind an arrow at the end do not matter to `spaced`. -/
theorem spaced_append_of_blank {t blanks : Text} (h : arrow <:+ t)
    (hblanks : ∀ c ∈ blanks, isBlank c = true) : spaced (t ++ blanks) = spaced t := by
  induction t using spaced_induction with
  | nil => cases List.suffix_nil.1 h
  | ahead t rest ht ih =>
    have hmore : trimLeft (t ++ blanks) = arrow ++ (rest ++ blanks) := by
      rw [trimLeft_append_of_ne_nil (by simp [ht, arrow]), ht, List.append_assoc]
    rw [spaced_of_arrow hmore, spaced_of_arrow ht]
    by_cases hrest : trimLeft rest = []
    · have hall : trimLeft (rest ++ blanks) = [] := by
        rw [trimLeft_append_of_blank (List.dropWhile_eq_nil_iff.1 hrest)]
        exact List.dropWhile_eq_nil_iff.2 hblanks
      rw [hall, hrest]
    · rw [trimLeft_append_of_ne_nil hrest, ih (arrow_suffix_of_ahead ht hrest h)]
  | other c t hc ih =>
    have hsuffix := arrow_suffix_of_cons hc h
    have hlen := (arrow_suffix_trimLeft h).length_le
    have hne : trimLeft (c :: t) ≠ [] := fun hnil => by
      rw [hnil] at hlen
      cases hlen
    have hmore : ¬ arrow <+: trimLeft (c :: (t ++ blanks)) := fun hstarts => by
      rw [← List.cons_append, trimLeft_append_of_ne_nil hne] at hstarts
      exact hc (List.prefix_of_prefix_length_le hstarts (List.prefix_append _ _) hlen)
    rw [List.cons_append, spaced_cons hmore, spaced_cons hc, ih hsuffix]

/-- At the front of a trimmed text `spaced` puts a blank before an arrow, and else nothing. -/
theorem spaced_front {t : Text} (h : ∀ c, t.head? = some c → isBlank c = false) :
    ¬ arrow <+: t ∧ (spaced t).head? = t.head? ∨ arrow <+: t ∧ spacedArrow <+: spaced t := by
  have htrim := trimLeft_eq_self h
  by_cases harrow : arrow <+: t
  · obtain ⟨rest, hrest⟩ := harrow
    exact .inr ⟨⟨rest, hrest⟩, _, (spaced_of_arrow (htrim.trans hrest.symm)).symm⟩
  · refine .inl ⟨harrow, ?_⟩
    cases t with
    | nil => rw [spaced_nil]
    | cons c t => rw [spaced_cons (htrim.symm ▸ harrow)]; rfl

/-- `spaced` puts a blank behind an arrow at the end of the text, and else nothing. -/
def EndsSpaced (t : Text) : Prop :=
  ¬ arrow <:+ t ∧ (spaced t).getLast? = t.getLast? ∨ arrow <:+ t ∧ spacedArrow <:+ spaced t

theorem EndsSpaced.of_suffix {t rest front : Text} (h : EndsSpaced rest) (hsuffix : rest <:+ t)
    (hne : rest ≠ []) (harrow : arrow <:+ t → arrow <:+ rest)
    (hspaced : spaced t = front ++ spaced rest) : EndsSpaced t := by
  rcases h with ⟨hno, hsame⟩ | ⟨hyes, hend⟩
  · refine .inl ⟨fun h => hno (harrow h), ?_⟩
    obtain ⟨c, hc⟩ := Option.isSome_iff_exists.1 (List.getLast?_isSome.2 hne)
    rw [hspaced, getLast?_of_suffix hsuffix hc]
    exact getLast?_append_of_some (hsame.trans hc)
  · exact .inr ⟨hyes.trans hsuffix, hspaced ▸ hend.trans (List.suffix_append _ _)⟩

/-- At the end of a trimmed text this is all that `spaced` does. -/
theorem spaced_end {t : Text} (h : ∀ c, t.getLast? = some c → isBlank c = false) :
    EndsSpaced t := by
  induction t using spaced_induction with
  | nil =>
    refine .inl ⟨fun hnil => ?_, by rw [spaced_nil]⟩
    cases List.suffix_nil.1 hnil
  | ahead t rest ht ih =>
    have hparts : leading t ++ (arrow ++ rest) = t := ht ▸ takeWhile_append_trimLeft t
    have hrest : rest <:+ t := ⟨leading t ++ arrow, by rw [List.append_assoc, hparts]⟩
    by_cases hne : trimLeft rest = []
    · -- nothing but blanks is behind the arrow, and the text does not end in a blank
      obtain rfl : rest = [] := eq_nil_of_blank (List.dropWhile_eq_nil_iff.1 hne) fun c hc =>
        h c (getLast?_of_suffix hrest hc)
      rw [List.append_nil] at hparts ht
      refine .inr ⟨⟨_, hparts⟩, ?_⟩
      rw [spaced_of_arrow ((List.append_nil arrow).symm ▸ ht)]
      exact ⟨[], by simp [trimLeft]⟩
    · have hsuffix : trimLeft rest <:+ t := (List.dropWhile_suffix isBlank).trans hrest
      exact (ih fun c hc => h c (getLast?_of_suffix hsuffix hc)).of_suffix hsuffix hne
        (arrow_suffix_of_ahead ht hne) (spaced_of_arrow ht)
  | other c t hc ih =>
    have hsuffix : t <:+ c :: t := List.suffix_cons c t
    by_cases hne : t = []
    · subst hne
      refine .inl ⟨fun h => ?_, by rw [spaced_cons hc, spaced_nil]⟩
      have := h.length_le
      simp [arrow] at this
    · have hstep : spaced (c :: t) = [c] ++ spaced t := spaced_cons hc
      exact (ih fun d hd => h d (getLast?_of_suffix hsuffix hd)).of_suffix hsuffix hne
        (arrow_suffix_of_cons hc) hstep

/-! ## Ticks -/

theorem infix_of_spaced {c : Char} {w t : Text} (hc : c ∉ spacedArrow)
    (hw : ∀ d ∈ c :: w, isBlank d = false) (h : c :: w <:+: spaced t) : c :: w <:+: t := by
  induction t using spaced_induction with
  | nil => rwa [spaced_nil] at h
  | ahead t rest ht ih =>
    rw [spaced_of_arrow ht, infix_append_left_iff w hc] at h
    have hsuffix : trimLeft rest <:+ trimLeft t := by
      rw [ht]
      exact (List.dropWhile_suffix isBlank).trans (List.suffix_append _ _)
    exact (ih h).trans (hsuffix.trans (List.dropWhile_suffix isBlank)).isInfix
  | other d t hd ih =>
    rw [spaced_cons hd] at h
    rcases List.infix_cons_iff.1 h with hstarts | h
    · rw [← spaced_cons hd] at hstarts
      exact (makesArrows_looseArrow?.prefix_of_prefix hw hstarts).isInfix
    · exact (ih h).trans (List.suffix_cons d t).isInfix

end MermaidPress.Diagram
