/-
The blanks around arrows in a repaired source. Behind every arrow the pass that spaces them goes on
with what is not blank, and before every arrow it comes from there; so what is around an arrow is
its own, and only between two arrows with nothing but blanks between them the blanks of both come
together. The pass behind it changes nothing of that: what it leaves is spaced as well.
-/
import MermaidPress.Proofs.Diagram.Rounds

namespace MermaidPress.Diagram

open Text

variable {c : Char} {t before behind : Text}

/-! ## Where arrows are -/

theorem exists_of_cons_eq (hc : c ≠ '-') (h : c :: t = before ++ arrow ++ behind) :
    ∃ rest, before = c :: rest ∧ t = rest ++ arrow ++ behind := by
  cases before with
  | nil => exact absurd (List.cons.inj h).1 hc
  | cons d rest =>
    obtain ⟨rfl, ht⟩ := List.cons.inj h
    exact ⟨rest, rfl, ht⟩

/-- An arrow does not overlap the one at the front. -/
theorem exists_of_arrow_append_eq (h : arrow ++ t = before ++ arrow ++ behind) :
    before = [] ∧ t = behind ∨ ∃ rest, before = arrow ++ rest ∧ t = rest ++ arrow ++ behind := by
  match before with
  | [] => exact .inl ⟨rfl, List.append_cancel_left h⟩
  | [_] => simp [arrow] at h
  | [_, _] => simp [arrow] at h
  | a :: b :: d :: rest =>
    simp only [arrow, String.reduceToList, List.cons_append, List.nil_append, List.append_assoc,
      List.cons.injEq] at h
    obtain ⟨rfl, rfl, rfl, rfl⟩ := h
    exact .inr ⟨rest, rfl, by simp [arrow]⟩

theorem spacedArrow_append (t : Text) : spacedArrow ++ t = ' ' :: (arrow ++ ' ' :: t) := rfl

/-! ## Behind an arrow -/

theorem leading_cons_of_blank (h : isBlank c = true) (t : Text) :
    leading (c :: t) = c :: leading t :=
  List.takeWhile_cons_of_pos h

theorem leading_eq_nil (h : ∀ c, t.head? = some c → isBlank c = false) : leading t = [] := by
  cases t with
  | nil => rfl
  | cons c t => exact List.takeWhile_cons_of_neg (by simp [h c rfl])

theorem leading_space_spaced (h : trimLeft t = t) : leading (' ' :: spaced t) =
    if arrow <+: trimLeft (' ' :: spaced t) then [' ', ' '] else [' '] := by
  have hspace : isBlank ' ' = true := by decide
  rw [leading_cons_of_blank hspace, trimLeft_cons_of_blank hspace]
  have hfront := trimLeft_eq_self_iff.1 h
  rcases spaced_front hfront with ⟨harrow, hhead⟩ | ⟨-, rest, hrest⟩
  · have hno : ¬ arrow <+: trimLeft (spaced t) := fun hyes =>
      harrow (h ▸ arrow_prefix_of_spaced hyes)
    rw [if_neg hno, leading_eq_nil fun c hc => hfront c (hhead ▸ hc)]
  · have hyes : arrow <+: trimLeft (spaced t) := by
      rw [← hrest, trimLeft_spacedArrow_append]
      exact List.prefix_append arrow (' ' :: rest)
    rw [if_pos hyes, ← hrest]
    rfl

/-- Behind an arrow of a `spaced` text is one blank, or two before the next arrow. -/
theorem leading_behind (h : spaced t = before ++ arrow ++ behind) :
    leading behind = if arrow <+: trimLeft behind then [' ', ' '] else [' '] := by
  induction t using spaced_induction generalizing before with
  | nil => simp [arrow] at h
  | ahead t rest ht ih =>
    rw [spaced_of_arrow ht, spacedArrow_append] at h
    obtain ⟨_, -, hbehind⟩ := exists_of_cons_eq (by decide) h
    rcases exists_of_arrow_append_eq hbehind with ⟨-, rfl⟩ | ⟨_, -, hlater⟩
    · exact leading_space_spaced (trimLeft_trimLeft rest)
    · obtain ⟨_, -, hrest⟩ := exists_of_cons_eq (by decide) hlater
      exact ih hrest
  | other c t hc ih =>
    rw [spaced_cons hc] at h
    cases before with
    | nil =>
      refine absurd (arrow_prefix_of_spaced ?_) hc
      rw [spaced_cons hc, h, List.nil_append, trimLeft_arrow_append]
      exact List.prefix_append arrow behind
    | cons d before => exact ih (List.cons.inj h).2

/-! ## Before an arrow -/

/-- Before an arrow of a `spaced` text is one blank, where no other arrow is before that. -/
theorem endBlanks_before (h : spaced t = before ++ arrow ++ behind) :
    endBlanks before = [' '] ∨ arrow <:+ trimRight before := by
  induction t using spaced_induction generalizing before with
  | nil => simp [arrow] at h
  | ahead t rest ht ih =>
    rw [spaced_of_arrow ht, spacedArrow_append] at h
    obtain ⟨_, rfl, hbehind⟩ := exists_of_cons_eq (by decide) h
    rcases exists_of_arrow_append_eq hbehind with ⟨rfl, -⟩ | ⟨_, rfl, hlater⟩
    · exact .inl rfl
    · obtain ⟨between, rfl, hrest⟩ := exists_of_cons_eq (by decide) hlater
      rw [← spacedArrow_append]
      by_cases hblank : trimRight between = []
      · -- nothing but blanks is between this arrow and the one at the front
        rw [trimRight_append_of_blank (isBlank_of_trimRight_eq_nil hblank)]
        exact .inr ⟨[' '], by decide⟩
      · rw [endBlanks_append_of_ne_nil hblank, trimRight_append_of_ne_nil hblank]
        exact (ih hrest).imp_right fun harrow => harrow.trans (List.suffix_append _ _)
  | other c t hc ih =>
    have harrow : ¬ arrow <+: trimLeft (before ++ arrow ++ behind) := fun harrow =>
      hc (arrow_prefix_of_spaced (h ▸ harrow))
    rw [spaced_cons hc] at h
    cases before with
    | nil =>
      rw [List.nil_append, trimLeft_arrow_append] at harrow
      exact absurd (List.prefix_append arrow behind) harrow
    | cons d before =>
      obtain ⟨rfl, hrest⟩ := List.cons.inj h
      rw [← List.singleton_append]
      by_cases hblank : trimRight before = []
      · have hall := isBlank_of_trimRight_eq_nil hblank
        cases hc : isBlank c with
        | true =>
          rw [List.append_assoc, List.cons_append, trimLeft_cons_of_blank hc,
            trimLeft_append_of_blank hall, trimLeft_arrow_append] at harrow
          exact absurd (List.prefix_append arrow behind) harrow
        | false =>
          have hnone : endBlanks [c] = [] := by simp [endBlanks, hc]
          rw [endBlanks_append_of_blank hall, hnone, List.nil_append, ← endBlanks_eq_self hblank]
          refine .inl ((ih hrest).resolve_right fun harrow => ?_)
          rw [hblank] at harrow
          cases List.suffix_nil.1 harrow
      · rw [endBlanks_append_of_ne_nil hblank, trimRight_append_of_ne_nil hblank]
        exact (ih hrest).imp_right fun harrow => harrow.trans (List.suffix_append _ _)

/-! ## Both margins -/

/-- Each `arrow` of the text has one blank on either side; between two arrows with nothing but
blanks between them are the two blanks of both. -/
def ArrowsStandApart (t : Text) : Prop :=
  ∀ before behind, t = before ++ arrow ++ behind →
    endBlanks before = (if arrow <:+ trimRight before then [' ', ' '] else [' ']) ∧
    leading behind = if arrow <+: trimLeft behind then [' ', ' '] else [' ']

theorem arrowsStandApart_spaced (t : Text) : ArrowsStandApart (spaced t) := by
  intro before behind h
  refine ⟨?_, leading_behind h⟩
  by_cases harrow : arrow <:+ trimRight before
  · -- what is before this arrow is behind another one
    obtain ⟨front, hfront⟩ := harrow
    have hblank : ∀ b ∈ endBlanks before, isBlank b = true := fun _ => isBlank_of_mem_endBlanks
    have hparts : spaced t = front ++ arrow ++ (endBlanks before ++ (arrow ++ behind)) := by
      rw [hfront, ← List.append_assoc, trimRight_append_endBlanks, h, List.append_assoc]
    have hmargin := leading_behind hparts
    have hlead : leading (endBlanks before ++ (arrow ++ behind)) = endBlanks before := by
      have hnone : leading (arrow ++ behind) = [] := rfl
      rw [leading, List.takeWhile_append_of_pos hblank, ← leading, hnone, List.append_nil]
    rw [hlead, trimLeft_append_of_blank hblank, trimLeft_arrow_append,
      if_pos (List.prefix_append arrow behind)] at hmargin
    rw [hmargin, if_pos ⟨front, hfront⟩]
  · rw [if_neg harrow]
    exact (endBlanks_before h).resolve_right harrow

/-- **`ArrowsStandApart` in what `repair` leaves**, wherever they are: at the edges, where line
breaks were around them, and in the names of subgraphs. -/
theorem arrowsStandApart_repair (source : Text) : ArrowsStandApart (repair source).source := by
  rw [source_repair, ← spaced_tidy]
  exact arrowsStandApart_spaced (tidy (mend source).source)

/-- Two arrows side by side, with their blanks. -/
example : (repair "A-->-->\nB-->".toList).source = "A -->  --> B --> ".toList := by decide +kernel

end MermaidPress.Diagram
