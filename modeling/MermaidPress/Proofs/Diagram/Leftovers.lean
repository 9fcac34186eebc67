/-
What is wrong with the arrows of a repaired source. The rules for arrows go over a source once, and
what they put in is not looked at again: of the heads behind an arrow one is taken away, and the
blanks of an arrow are its own also where another arrow is next to it. So a third head and a
neighbour are left over, and a check finds them; it finds nothing else that is wrong with an arrow.
-/
import MermaidPress.Proofs.Diagram.Conservation
import MermaidPress.Proofs.Diagram.Issues
import MermaidPress.Proofs.Diagram.Margins

namespace MermaidPress.Diagram

open Text

variable {c : Char} {t w : Text} {p q : Text → Prop}

/-! ## What is behind an arrow -/

/-- The text has an `arrow` with such a text behind it. -/
def ArrowBefore (p : Text → Prop) (t : Text) : Prop :=
  ∃ before behind, t = before ++ arrow ++ behind ∧ p behind

/-- What is behind the blanks at the front and, where a head is there, behind that and the blanks
that follow it. -/
def pastHead (t : Text) : Text :=
  match trimLeft t with
  | '>' :: rest => trimLeft rest
  | front => front

theorem pastHead_of_head {rest : Text} (h : trimLeft t = '>' :: rest) :
    pastHead t = trimLeft rest := by
  simp [pastHead, h]

theorem pastHead_of_no_head (h : ¬ ['>'] <+: trimLeft t) : pastHead t = trimLeft t := by
  unfold pastHead
  split
  · rename_i rest hrest
    exact absurd ⟨rest, hrest.symm⟩ h
  · rfl

theorem not_arrowBefore_nil : ¬ ArrowBefore p [] := by
  rintro ⟨before, behind, h, -⟩
  simp [arrow] at h

theorem arrowBefore_cons (h : ¬ arrow <+: c :: t) : ArrowBefore p (c :: t) ↔ ArrowBefore p t := by
  constructor
  · rintro ⟨before, behind, ht, hp⟩
    cases before with
    | nil => exact absurd ⟨behind, ht.symm⟩ h
    | cons d before => exact ⟨before, behind, (List.cons.inj ht).2, hp⟩
  · rintro ⟨before, behind, rfl, hp⟩
    exact ⟨c :: before, behind, rfl, hp⟩

theorem arrowBefore_cons_of_ne (hc : c ≠ '-') : ArrowBefore p (c :: t) ↔ ArrowBefore p t :=
  arrowBefore_cons fun h => hc (List.cons_prefix_cons.1 h).1.symm

theorem arrowBefore_hyphen_head : ArrowBefore p ('-' :: '>' :: t) ↔ ArrowBefore p t := by
  rw [arrowBefore_cons (by simp [arrow]), arrowBefore_cons_of_ne (by decide)]

theorem arrowBefore_arrow_append : ArrowBefore p (arrow ++ t) ↔ p t ∨ ArrowBefore p t := by
  constructor
  · rintro ⟨before, behind, ht, hp⟩
    rcases exists_of_arrow_append_eq ht with ⟨-, rfl⟩ | ⟨rest, -, rfl⟩
    · exact .inl hp
    · exact .inr ⟨rest, behind, rfl, hp⟩
  · rintro (hp | ⟨before, behind, rfl, hp⟩)
    · exact ⟨[], t, rfl, hp⟩
    · exact ⟨arrow ++ before, behind, by simp, hp⟩

theorem arrowBefore_append_of_notMem {lead : Text} (h : '-' ∉ lead) :
    ArrowBefore p (lead ++ t) ↔ ArrowBefore p t := by
  induction lead with
  | nil => rfl
  | cons c lead ih =>
    rw [List.mem_cons, not_or] at h
    rw [List.cons_append, arrowBefore_cons_of_ne (Ne.symm h.1), ih h.2]

theorem arrowBefore_trimLeft : ArrowBefore p (trimLeft t) ↔ ArrowBefore p t := by
  have hlead : '-' ∉ leading t := notMem_of_blank (fun _ => isBlank_of_mem_leading) (by decide)
  have hparts : leading t ++ trimLeft t = t := takeWhile_append_trimLeft t
  rw [← arrowBefore_append_of_notMem hlead, hparts]

/-! ## What rules leave behind arrows -/

/-- What is behind arrows after the hits are replaced: where the rule finds an arrow, what is behind
the hit; and where it passes over one, what was there. -/
theorem MakesArrows.arrowBefore_iff {find : (t : Text) → Option (Hit Unit t)}
    (h : MakesArrows find) (hw : ∀ t, w <+: trimLeft (replaceHits find t).1 ↔ w <+: trimLeft t)
    (hhit : ∀ t hit u, find t = some hit → trimLeft t = arrow ++ u →
      (q u ↔ w <+: trimLeft hit.rest) ∧ (ArrowBefore q u ↔ ArrowBefore q hit.rest))
    (hother : ∀ u, find (arrow ++ u) = none → (q u ↔ w <+: trimLeft u)) :
    ArrowBefore (w <+: trimLeft ·) (replaceHits find t).1 ↔ ArrowBefore q t := by
  induction t using replaceHits_induction find with
  | nil =>
    rw [replaceHits]
    exact iff_of_false not_arrowBefore_nil not_arrowBefore_nil
  | hit t hit hfound ih =>
    obtain ⟨⟨u, hu⟩, hspaced⟩ := h t hit hfound
    obtain ⟨hq, hbehind⟩ := hhit t hit u hfound hu.symm
    -- the arrow of the hit is the first in both texts
    have hspace : ' ' ≠ '-' := by decide
    rw [fst_replaceHits_of_hit hfound, hspaced, spacedArrow_append, arrowBefore_cons_of_ne hspace,
      arrowBefore_arrow_append, arrowBefore_cons_of_ne hspace, trimLeft_cons_of_blank (by decide),
      hw, ih, ← hq, ← hbehind, ← arrowBefore_arrow_append, hu, arrowBefore_trimLeft]
  | other c t hnone ih =>
    by_cases harrow : arrow <+: c :: t
    · -- the rule passes over this arrow, and so over the rest of its characters
      obtain ⟨u, hu⟩ := harrow
      have htail : '-' :: '>' :: u = t := (List.cons.inj hu).2
      rw [← htail, h.replaceHits_hyphen_head, arrowBefore_hyphen_head,
        arrowBefore_hyphen_head] at ih
      rw [← hu] at hnone ⊢
      rw [h.replaceHits_arrow_append hnone, arrowBefore_arrow_append, arrowBefore_arrow_append, hw,
        hother u hnone, ih]
    · have hno : ¬ arrow <+: c :: (replaceHits find t).1 := fun hyes => by
        rw [← fst_replaceHits_of_none hnone] at hyes
        exact harrow (h.prefix_of_prefix isBlank_of_mem_arrow hyes)
      rw [fst_replaceHits_of_none hnone, arrowBefore_cons hno, arrowBefore_cons harrow, ih]

/-! ## The rules for arrows -/

theorem not_head_of_doubledArrow?_eq_none {u : Text} (h : doubledArrow? (arrow ++ u) = none) :
    ¬ ['>'] <+: trimLeft u := by
  intro hhead
  have hbegins := malformedArrowBegins_iff.2 ⟨u, rfl, hhead⟩
  obtain ⟨rest, hrest⟩ := Option.isSome_iff_exists.1 hbegins
  unfold doubledArrow? at h
  split at h
  · rename_i hnone
    rw [hrest] at hnone
    cases hnone
  · cases h

theorem arrowBefore_spaced (hw : ∀ t, w <+: trimLeft (spaced t) ↔ w <+: trimLeft t) :
    ArrowBefore (w <+: trimLeft ·) (spaced t) ↔ ArrowBefore (w <+: trimLeft ·) t := by
  refine makesArrows_looseArrow?.arrowBefore_iff hw (fun t hit u hhit hu => ?_)
    fun u hnone => Iff.rfl
  obtain ⟨rest, ht, hrest, -⟩ := looseArrow?_eq_some hhit
  obtain rfl : u = rest := List.append_cancel_left (hu.symm.trans ht)
  rw [hrest, trimLeft_trimLeft, arrowBefore_trimLeft]
  exact ⟨Iff.rfl, Iff.rfl⟩

/-- `mendArrows` takes one head away behind each arrow. -/
theorem arrowBefore_mendArrows (hw : ∀ t, w <+: trimLeft (mendArrows t).1 ↔ w <+: trimLeft t) :
    ArrowBefore (w <+: trimLeft ·) (mendArrows t).1 ↔ ArrowBefore (w <+: pastHead ·) t := by
  refine makesArrows_doubledArrow?.arrowBefore_iff hw (fun t hit u hhit hu => ?_) fun u hnone => ?_
  · obtain ⟨rest, rfl, hrest, -⟩ := doubledArrow?_eq_some hhit
    rw [trimLeft_arrow_append] at hu
    obtain rfl : rest = u := List.append_cancel_left hu
    rw [pastHead_of_head hrest, ← arrowBefore_trimLeft (t := rest), hrest,
      arrowBefore_cons_of_ne (by decide)]
    exact ⟨Iff.rfl, Iff.rfl⟩
  · rw [pastHead_of_no_head (not_head_of_doubledArrow?_eq_none hnone)]

theorem Tightens.arrowBefore_iff {u v : Text} (h : Tightens u v) (hw : 'h' ∉ w) :
    ArrowBefore (w <+: Text.trimLeft ·) u ↔ ArrowBefore (w <+: Text.trimLeft ·) v := by
  induction h with
  | nil => rfl
  | @keep u v c h ih =>
    have harrow : 'h' ∉ arrow := by decide
    by_cases hu : arrow <+: c :: u
    · obtain ⟨x, hx⟩ := hu
      have hkeep := h.keep c
      rw [← hx] at hkeep ⊢
      obtain ⟨y, hy, hxy⟩ := hkeep.of_append_left harrow
      have hxu : '-' :: '>' :: x = u := (List.cons.inj hx).2
      have hyv : v = '-' :: '>' :: y := (List.cons.inj hy).2
      rw [← hxu, hyv, arrowBefore_hyphen_head, arrowBefore_hyphen_head] at ih
      rw [hy, arrowBefore_arrow_append, arrowBefore_arrow_append, ih, hxy.trimLeft.prefix_iff hw]
    · have hv : ¬ arrow <+: c :: v := mt ((h.keep c).prefix_iff harrow).2 hu
      rw [arrowBefore_cons hu, arrowBefore_cons hv, ih]
  | @gap blanks u v hne hblank h ih =>
    have hblanks : '-' ∉ blanks := notMem_of_blank hblank (by decide)
    have hh : 'h' ≠ '-' := by decide
    have hspace : ' ' ≠ '-' := by decide
    have hquote : '"' ≠ '-' := by decide
    rw [arrowBefore_cons_of_ne hh, arrowBefore_append_of_notMem hblanks,
      arrowBefore_cons_of_ne hquote, arrowBefore_cons_of_ne hh, arrowBefore_cons_of_ne hspace,
      arrowBefore_cons_of_ne hquote, ih]

theorem arrowBefore_repair {source : Text} (hh : 'h' ∉ w)
    (hspaced : ∀ t, w <+: trimLeft (spaced t) ↔ w <+: trimLeft t)
    (hmended : ∀ t, w <+: trimLeft (mendArrows t).1 ↔ w <+: trimLeft t) :
    ArrowBefore (w <+: trimLeft ·) (repair source).source ↔
      ArrowBefore (w <+: pastHead ·) (relabelled source) := by
  have hquoted : Tightens (spaced (mend source).source) (repair source).source :=
    tightens_quoted _
  rw [← hquoted.arrowBefore_iff hh, arrowBefore_spaced hspaced, source_mend,
    arrowBefore_mendArrows hmended]

/-! ## What a check finds -/

theorem malformedArrow_mem_check_iff :
    .malformedArrow ∈ check t ↔ ArrowBefore (['>'] <+: trimLeft ·) t := by
  rw [mem_check]
  constructor
  · rintro ⟨s, hs, h⟩
    obtain ⟨before, rfl⟩ := mem_ends_iff.1 hs
    obtain ⟨behind, rfl, hhead⟩ := malformedArrowBegins_iff.1 h
    exact ⟨before, behind, (List.append_assoc _ _ _).symm, hhead⟩
  · rintro ⟨before, behind, rfl, hhead⟩
    rw [List.append_assoc]
    exact ⟨arrow ++ behind, mem_ends_iff.2 (List.suffix_append before _),
      malformedArrowBegins_iff.2 ⟨behind, rfl, hhead⟩⟩

/-- With its own blanks behind it an arrow is uneven only where another one is next to it. -/
theorem unevenArrowBegins_iff_arrow {behind : Text}
    (h : leading behind = if arrow <+: trimLeft behind then [' ', ' '] else [' ']) :
    unevenArrowBegins (arrow ++ behind) = true ↔ arrow <+: trimLeft behind := by
  have hafter (u : Text) : afterArrow? (arrow ++ u) = some u := after?_append arrow u
  have hparts : leading behind ++ trimLeft behind = behind := takeWhile_append_trimLeft behind
  by_cases harrow : arrow <+: trimLeft behind
  · rw [if_pos harrow] at h
    rw [h] at hparts
    refine iff_of_true ?_ harrow
    rw [← hparts, unevenArrowBegins, hafter]
    rfl
  · rw [if_neg harrow] at h
    rw [h] at hparts
    refine iff_of_false (fun huneven => ?_) harrow
    rw [← hparts, unevenArrowBegins, hafter] at huneven
    obtain ⟨c, hc, hblank⟩ := (Option.any_eq_true _ _).1 huneven
    rw [isBlank_of_head?_trimLeft hc] at hblank
    cases hblank

theorem arrow_prefix_of_unevenArrowBegins (h : unevenArrowBegins t = true) : arrow <+: t := by
  rcases unevenArrowBegins_iff.1 h with ⟨c, -, hstarts⟩ | ⟨b, c, -, -, hstarts⟩
  · exact (List.prefix_append arrow [c]).trans hstarts
  · exact (List.prefix_append arrow [b, c]).trans hstarts

theorem unevenArrowSpacing_mem_check_iff (h : ArrowsStandApart t) :
    .unevenArrowSpacing ∈ check t ↔ ArrowBefore (arrow <+: trimLeft ·) t := by
  rw [mem_check]
  constructor
  · rintro ⟨s, hs, huneven⟩
    obtain ⟨before, rfl⟩ := mem_ends_iff.1 hs
    obtain ⟨behind, rfl⟩ := arrow_prefix_of_unevenArrowBegins huneven
    have hparts : before ++ (arrow ++ behind) = before ++ arrow ++ behind :=
      (List.append_assoc _ _ _).symm
    exact ⟨before, behind, hparts, (unevenArrowBegins_iff_arrow (h _ _ hparts).2).1 huneven⟩
  · rintro ⟨before, behind, rfl, harrow⟩
    have huneven := (unevenArrowBegins_iff_arrow (h _ _ rfl).2).2 harrow
    rw [List.append_assoc]
    exact ⟨arrow ++ behind, mem_ends_iff.2 (List.suffix_append before _), huneven⟩

/-- **What `check` finds wrong with the arrows of a repaired source** is what `mendArrows` leaves
over: behind an arrow and the one head that is taken away there, a malformed arrow has a further
head, and an uneven one has another arrow. -/
theorem arrow_issues_repair_iff (source : Text) :
    (.malformedArrow ∈ check (repair source).source ↔
      ArrowBefore (['>'] <+: pastHead ·) (relabelled source)) ∧
    (.unevenArrowSpacing ∈ check (repair source).source ↔
      ArrowBefore (arrow <+: pastHead ·) (relabelled source)) := by
  have hmends := makesArrows_doubledArrow?
  have hspaces := makesArrows_looseArrow?
  have hmargins : ArrowsStandApart (repair source).source := by
    rw [source_repair, ← spaced_tidy]
    exact arrowsStandApart_spaced (tidy (mend source).source)
  constructor
  · rw [malformedArrow_mem_check_iff]
    exact arrowBefore_repair (by decide) (fun _ => hspaces.head_prefix_iff)
      fun _ => hmends.head_prefix_iff
  · rw [unevenArrowSpacing_mem_check_iff hmargins]
    exact arrowBefore_repair (by decide) (fun _ => hspaces.arrow_prefix_iff)
      fun _ => hmends.arrow_prefix_iff

/-- A third head is left over, and so are the blanks of two arrows side by side. -/
theorem not_sound_arrows_of_third_head_or_neighbour :
    (repair "A-->>>B".toList).source = "A --> >B".toList ∧
    check "A --> >B".toList = [.malformedArrow] ∧
    (repair "A-->-->B".toList).source = "A -->  --> B".toList ∧
    check "A -->  --> B".toList = [.unevenArrowSpacing] ∧
    ¬ ∀ source, .malformedArrow ∉ check (repair source).source ∧
      .unevenArrowSpacing ∉ check (repair source).source := by
  have hhead : (repair "A-->>>B".toList).source = "A --> >B".toList := by decide +kernel
  have hissues : check "A --> >B".toList = [.malformedArrow] := by decide +kernel
  refine ⟨hhead, hissues, by decide +kernel, by decide +kernel, fun h => ?_⟩
  have hnotMalformed := (h "A-->>>B".toList).1
  rw [hhead, hissues] at hnotMalformed
  exact hnotMalformed List.mem_cons_self

end MermaidPress.Diagram
