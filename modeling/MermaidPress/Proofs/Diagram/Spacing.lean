/-
The two passes of spacing together. The second one, `quoted`, makes one blank of the blanks between
a subgraph and its quoted name, and nothing else: so it finds the same subgraphs again, and as
neither a letter nor a quote is part of an arrow, the arrows stay as the first pass left them.
-/
import Mathlib.Data.List.Basic
import MermaidPress.Proofs.Diagram.Arrows

namespace MermaidPress.Diagram

open Text

/-- The text with one blank between each subgraph and its quoted name. -/
def quoted (t : Text) : Text := (replaceHits quotedSubgraph? t).1

/-! ## Blanks before quotes -/

/-- `v` is `u` with one blank in the place of some of the blanks between the letter `h`, the last
of the keyword, and a quote. -/
inductive Tightens : Text → Text → Prop
  | nil : Tightens [] []
  | keep {u v : Text} (c : Char) (h : Tightens u v) : Tightens (c :: u) (c :: v)
  | gap {blanks u v : Text} (hne : blanks ≠ []) (hblank : ∀ c ∈ blanks, isBlank c = true)
      (h : Tightens u v) : Tightens ('h' :: (blanks ++ '"' :: u)) ('h' :: ' ' :: '"' :: v)

namespace Tightens

variable {u v w : Text}

theorem append_left (w : Text) (h : Tightens u v) : Tightens (w ++ u) (w ++ v) := by
  induction w with
  | nil => exact h
  | cons c w ih => exact ih.keep c

theorem of_cons_left {c : Char} (hc : c ≠ 'h') (h : Tightens (c :: u) w) :
    ∃ v, w = c :: v ∧ Tightens u v := by
  cases h with
  | keep _ h => exact ⟨_, rfl, h⟩
  | gap => exact absurd rfl hc

theorem of_cons_right {c : Char} (hc : c ≠ 'h') (h : Tightens w (c :: v)) :
    ∃ u, w = c :: u ∧ Tightens u v := by
  cases h with
  | keep _ h => exact ⟨_, rfl, h⟩
  | gap => exact absurd rfl hc

theorem of_append_left {t : Text} (ht : 'h' ∉ t) (h : Tightens (t ++ u) w) :
    ∃ v, w = t ++ v ∧ Tightens u v := by
  induction t generalizing w with
  | nil => exact ⟨w, rfl, h⟩
  | cons c t ih =>
    rw [List.mem_cons, not_or] at ht
    obtain ⟨w, rfl, hw⟩ := of_cons_left (Ne.symm ht.1) h
    obtain ⟨v, rfl, hv⟩ := ih ht.2 hw
    exact ⟨v, rfl, hv⟩

theorem of_append_right {t : Text} (ht : 'h' ∉ t) (h : Tightens w (t ++ v)) :
    ∃ u, w = t ++ u ∧ Tightens u v := by
  induction t generalizing w with
  | nil => exact ⟨w, rfl, h⟩
  | cons c t ih =>
    rw [List.mem_cons, not_or] at ht
    obtain ⟨w, rfl, hw⟩ := of_cons_right (Ne.symm ht.1) h
    obtain ⟨u, rfl, hu⟩ := ih ht.2 hw
    exact ⟨u, rfl, hu⟩

theorem head?_eq (h : Tightens u v) : u.head? = v.head? := by
  cases h with
  | nil => rfl
  | keep => rfl
  | gap => rfl

theorem getLast?_eq (h : Tightens u v) : u.getLast? = v.getLast? := by
  induction h with
  | nil => rfl
  | keep c h ih => rw [List.getLast?_cons, List.getLast?_cons, ih]
  | @gap blanks u v hne hblank h ih =>
    have hquote : ('"' :: u).getLast? = ('"' :: v).getLast? := by
      rw [List.getLast?_cons, List.getLast?_cons, ih]
    have hv : ('h' :: ' ' :: '"' :: v).getLast? = ('"' :: v).getLast? :=
      List.getLast?_append_cons ['h', ' '] '"' v
    rw [hv, ← List.cons_append, List.getLast?_append_cons, hquote]

theorem leading_eq (h : Tightens u v) : leading u = leading v := by
  induction h with
  | nil => rfl
  | keep c h ih =>
    simp only [leading, List.takeWhile_cons] at ih ⊢
    rw [ih]
  | gap => rfl

theorem trimLeft (h : Tightens u v) : Tightens (trimLeft u) (trimLeft v) := by
  induction h with
  | nil => exact .nil
  | keep c h ih =>
    cases hc : isBlank c with
    | true => rwa [trimLeft_cons_of_blank hc, trimLeft_cons_of_blank hc]
    | false =>
      rw [trimLeft_cons_of_not_blank hc, trimLeft_cons_of_not_blank hc]
      exact h.keep c
  | gap hne hblank h => exact h.gap hne hblank

theorem exists_of_quote {name rest : Text} (hname : '"' ∉ name)
    (h : Tightens u (name ++ '"' :: rest)) :
    ∃ name' rest', u = name' ++ '"' :: rest' ∧ '"' ∉ name' ∧ Tightens rest' rest := by
  generalize hv : name ++ '"' :: rest = v at h
  induction h generalizing name with
  | nil => simp at hv
  | @keep u v c h ih =>
    cases name with
    | nil =>
      obtain ⟨rfl, rfl⟩ := List.cons.inj hv
      exact ⟨[], u, rfl, List.not_mem_nil, h⟩
    | cons d name =>
      obtain ⟨rfl, htail⟩ := List.cons.inj hv
      obtain ⟨hd, hrest⟩ := not_or.1 (mt List.mem_cons.2 hname)
      obtain ⟨name', rest', rfl, hname', hbehind⟩ := ih hrest htail
      exact ⟨d :: name', rest', rfl, by simp [hd, hname'], hbehind⟩
  | @gap blanks u v hne hblank h ih =>
    have hquote : '"' ∉ 'h' :: blanks := by
      rw [List.mem_cons, not_or]
      exact ⟨by decide, notMem_of_blank hblank (by decide)⟩
    have hfirst : '"' ∉ ['h', ' '] := by decide
    have hcut : upTo? '"' ('h' :: ' ' :: '"' :: v) = some (['h', ' '], v) := upTo?_append hfirst v
    rw [← hv, upTo?_append hname] at hcut
    obtain ⟨-, rfl⟩ := Prod.mk.inj (Option.some.inj hcut)
    exact ⟨'h' :: blanks, u, rfl, hquote, h⟩

/-- Between the keyword and a quote are blanks in both or in neither. -/
theorem exists_of_gap {blanks : Text} (hne : blanks ≠ []) (hblank : ∀ c ∈ blanks, isBlank c = true)
    (h : Tightens w ('h' :: (blanks ++ '"' :: v))) :
    ∃ blanks u, w = 'h' :: (blanks ++ '"' :: u) ∧ blanks ≠ [] ∧ (∀ c ∈ blanks, isBlank c = true) ∧
      Tightens u v := by
  have hh : 'h' ∉ blanks := notMem_of_blank hblank (by decide)
  have hquote : '"' ∉ blanks := notMem_of_blank hblank (by decide)
  generalize hv : blanks ++ '"' :: v = behind at h
  cases h with
  | keep _ h =>
    subst hv
    obtain ⟨w, rfl, hw⟩ := h.of_append_right hh
    obtain ⟨u, rfl, hu⟩ := hw.of_cons_right (by decide)
    exact ⟨blanks, u, rfl, hne, hblank, hu⟩
  | @gap before u v' hne' hblank' h =>
    have hfirst : '"' ∉ [' '] := by decide
    have hcut : upTo? '"' (' ' :: '"' :: v') = some ([' '], v') := upTo?_append hfirst v'
    rw [← hv, upTo?_append hquote] at hcut
    obtain ⟨-, rfl⟩ := Prod.mk.inj (Option.some.inj hcut)
    exact ⟨before, u, rfl, hne', hblank', h⟩

/-! ## The arrows -/

theorem prefix_iff {t : Text} (ht : 'h' ∉ t) (h : Tightens u v) : t <+: u ↔ t <+: v := by
  constructor
  · rintro ⟨rest, rfl⟩
    obtain ⟨rest', rfl, -⟩ := h.of_append_left ht
    exact List.prefix_append t rest'
  · rintro ⟨rest, rfl⟩
    obtain ⟨rest', rfl, -⟩ := h.of_append_right ht
    exact List.prefix_append t rest'

theorem arrow_prefix_iff (h : Tightens u v) :
    arrow <+: Text.trimLeft u ↔ arrow <+: Text.trimLeft v :=
  h.trimLeft.prefix_iff (by decide)

theorem trimLeft_eq_self_iff (h : Tightens u v) :
    Text.trimLeft u = u ↔ Text.trimLeft v = v := by
  rw [Text.trimLeft_eq_self_iff, Text.trimLeft_eq_self_iff, h.head?_eq]

end Tightens

theorem spaced_blanks_append {blanks : Text} (hblank : ∀ c ∈ blanks, isBlank c = true) {c : Char}
    (hc : isBlank c = false) (hne : c ≠ '-') (t : Text) :
    spaced (blanks ++ c :: t) = blanks ++ c :: spaced t := by
  induction blanks with
  | nil =>
    refine spaced_cons fun h => ?_
    rw [trimLeft_cons_of_not_blank hc] at h
    exact hne (List.cons_prefix_cons.1 h).1.symm
  | cons b blanks ih =>
    have hblanks := (List.forall_mem_cons.1 hblank).2
    rw [List.cons_append, spaced_cons, ih hblanks, List.cons_append]
    intro h
    rw [← List.cons_append, trimLeft_append_of_blank hblank, trimLeft_cons_of_not_blank hc] at h
    exact hne (List.cons_prefix_cons.1 h).1.symm

theorem spaced_trimLeft_eq_self_iff {t : Text} : spaced (trimLeft t) = t ↔
    spaced t = t ∧ (arrow <+: trimLeft t ∨ trimLeft t = t) := by
  constructor
  · intro h
    refine ⟨h ▸ spaced_spaced _, ?_⟩
    rcases spaced_front fun _ => isBlank_of_head?_trimLeft (t := t) with ⟨-, hhead⟩ | ⟨harrow, -⟩
    · rw [h] at hhead
      exact .inr (trimLeft_eq_self fun c hc => isBlank_of_head?_trimLeft (hhead.symm.trans hc))
    · exact .inl harrow
  · rintro ⟨h, ⟨rest, hrest⟩ | htrim⟩
    · rw [spaced_of_arrow ((trimLeft_trimLeft t).trans hrest.symm), ← spaced_of_arrow hrest.symm, h]
    · rw [htrim, h]

/-- What is `spaced` stays so when blanks before quotes go. -/
theorem Tightens.spaced_eq {t v : Text} (h : Tightens (spaced t) v) : spaced v = v := by
  induction t using spaced_induction generalizing v with
  | nil =>
    rw [spaced_nil] at h
    cases h
    exact spaced_nil
  | ahead t rest ht ih =>
    have hno : 'h' ∉ spacedArrow := by decide
    rw [spaced_of_arrow ht] at h
    obtain ⟨v, rfl, hv⟩ := h.of_append_left hno
    -- what the arrow has taken from the blanks behind it, it takes again
    have hrest := spaced_trimLeft_eq_self_iff.1 ((spaced_spaced_and _).2 (trimLeft_trimLeft rest))
    rw [hv.arrow_prefix_iff, hv.trimLeft_eq_self_iff] at hrest
    rw [spaced_of_arrow (trimLeft_spacedArrow_append v), trimLeft_cons_of_blank (by decide),
      spaced_trimLeft_eq_self_iff.2 ⟨ih hv, hrest.2⟩]
  | other c t hc ih =>
    have harrow := h.arrow_prefix_iff.not.1 fun h => hc (arrow_prefix_of_spaced h)
    rw [spaced_cons hc] at h
    generalize spaced t = u at h ih
    cases h with
    | keep c h => rw [spaced_cons harrow, ih h]
    | @gap blanks u v hne hblank h =>
      have hquote := ih ((h.keep '"').append_left blanks)
      rw [spaced_blanks_append hblank (by decide) (by decide)] at hquote
      have hv : spaced v = v := by simpa using hquote
      have hspace : ∀ c ∈ [' '], isBlank c = true := List.forall_mem_singleton.2 (by decide)
      have hbehind : spaced (' ' :: '"' :: v) = ' ' :: '"' :: spaced v :=
        spaced_blanks_append hspace (by decide) (by decide) v
      rw [spaced_cons harrow, hbehind, hv]

/-! ## Line breaks behind a name -/

theorem throughLastBreak?_eq_none_iff {t : Text} : throughLastBreak? t = none ↔ '\n' ∉ leading t := by
  unfold throughLastBreak?
  dsimp only
  split
  · rename_i hall
    have hall := List.dropWhile_eq_nil_iff.1 hall
    refine iff_of_true rfl fun hmem => ?_
    simpa using hall '\n' (List.mem_reverse.2 hmem)
  · rename_i hne
    refine iff_of_false (by simp) (not_not.2 ?_)
    by_contra hmem
    refine hne (List.dropWhile_eq_nil_iff.2 fun c hc => ?_)
    simpa using fun heq : c = '\n' => hmem (heq ▸ List.mem_reverse.1 hc)

theorem throughLastBreak?_append_of_leading_eq {blanks rest rest' : Text}
    (h : throughLastBreak? (blanks ++ rest) = some (blanks, rest))
    (hlead : leading rest' = leading rest) :
    throughLastBreak? (blanks ++ rest') = some (blanks, rest') := by
  have hsame : leading (blanks ++ rest') = leading (blanks ++ rest) := by
    have hblank : ∀ c ∈ blanks, isBlank c = true := fun _ => isBlank_of_mem_throughLastBreak? h
    unfold leading at hlead ⊢
    rw [List.takeWhile_append_of_pos hblank, List.takeWhile_append_of_pos hblank, hlead]
  have hcut : ∃ after, throughLastBreak? (blanks ++ rest') = some (blanks, after) := by
    unfold leading at hsame
    unfold throughLastBreak? at h ⊢
    rw [← hsame] at h
    dsimp only at h ⊢
    split at h
    · cases h
    · obtain ⟨hblanks, -⟩ := Prod.mk.inj (Option.some.inj h)
      exact ⟨_, by rw [hblanks]⟩
  obtain ⟨after, hafter⟩ := hcut
  obtain rfl := List.append_cancel_left (eq_append_of_throughLastBreak? hafter)
  exact hafter

/-! ## The second pass -/

section

variable {c : Char} {t u v gap name blanks rest : Text}

theorem quoted_of_named (h : NamedSubgraph t gap name blanks rest) : quoted t =
    "subgraph".toList ++ (' ' :: '"' :: (name ++ '"' :: (blanks ++ quoted rest))) := by
  obtain ⟨hit, hhit, rfl, hr⟩ := h.exists_hit
  cases t with
  | nil => cases h.parts
  | cons c t =>
    unfold quoted
    rw [replaceHits_of_hit hhit, hr]
    simp

theorem quoted_cons (h : ∀ gap name blanks rest, ¬ NamedSubgraph (c :: t) gap name blanks rest) :
    quoted (c :: t) = c :: quoted t := by
  have hnone : quotedSubgraph? (c :: t) = none :=
    Option.eq_none_iff_forall_ne_some.2 fun hit hhit => by
      obtain ⟨gap, name, blanks, hnamed, -⟩ := quotedSubgraph?_eq_some hhit
      exact h gap name blanks hit.rest hnamed
  unfold quoted
  rw [replaceHits_of_none hnone]

@[simp] theorem quoted_nil : quoted [] = [] := by
  unfold quoted
  rw [replaceHits]

/-- Induction along `quoted`: at a subgraph with a quoted name it goes on behind the line break, and
elsewhere with the next character. -/
@[elab_as_elim]
theorem quoted_induction {P : Text → Prop} (nil : P [])
    (named : ∀ t gap name blanks rest, NamedSubgraph t gap name blanks rest → P rest → P t)
    (other : ∀ c t, (∀ gap name blanks rest, ¬ NamedSubgraph (c :: t) gap name blanks rest) →
      P t → P (c :: t)) (t : Text) : P t := by
  fun_induction replaceHits quotedSubgraph? t with
  | case1 => exact nil
  | case2 c t hit hx out notes hout ih =>
    obtain ⟨gap, name, blanks, hnamed, -⟩ := quotedSubgraph?_eq_some hx
    exact named _ gap name blanks _ hnamed ih
  | case3 c t hx out notes hout ih =>
    refine other c t (fun gap name blanks rest hnamed => ?_) ih
    obtain ⟨hit, hhit, -, -⟩ := hnamed.exists_hit
    rw [hx] at hhit
    cases hhit

/-- `quoted` tightens a text, and does nothing else. -/
theorem tightens_quoted (t : Text) : Tightens t (quoted t) := by
  induction t using quoted_induction with
  | nil => exact (quoted_nil).symm ▸ Tightens.nil
  | named t gap name blanks rest h ih =>
    have hbehind := ih.append_left ('"' :: (name ++ '"' :: blanks))
    have htext := (ih.append_left (name ++ '"' :: blanks)).gap h.gap_ne_nil h.isBlank_gap
    rw [quoted_of_named h, h.parts]
    simpa using htext.append_left "subgrap".toList
  | other c t h ih => exact (quoted_cons h).symm ▸ ih.keep c

theorem NamedSubgraph.of_tightens (htight : Tightens u v)
    (h : NamedSubgraph v gap name blanks rest) :
    ∃ gap name blanks rest, NamedSubgraph u gap name blanks rest := by
  have hparts : v = "subgrap".toList ++ 'h' :: (gap ++ '"' :: (name ++ '"' :: (blanks ++ rest))) :=
    h.parts
  have hno : 'h' ∉ "subgrap".toList := by decide
  rw [hparts] at htight
  obtain ⟨w, rfl, hw⟩ := htight.of_append_right hno
  obtain ⟨gap, u, rfl, hne, hblank, hu⟩ := hw.exists_of_gap h.gap_ne_nil h.isBlank_gap
  obtain ⟨name, u, rfl, hname, hu⟩ := hu.exists_of_quote h.quote_not_mem
  cases hbreak : throughLastBreak? u with
  | none =>
    rw [throughLastBreak?_eq_none_iff, hu.leading_eq, ← throughLastBreak?_eq_none_iff,
      h.lastBreak] at hbreak
    cases hbreak
  | some cut =>
    obtain ⟨blanks, rest⟩ := cut
    obtain rfl := eq_append_of_throughLastBreak? hbreak
    exact ⟨gap, name, blanks, rest, rfl, hne, hblank, hname, hbreak⟩

/-- `quoted` twice is `quoted` once. -/
theorem quoted_quoted (t : Text) : quoted (quoted t) = quoted t := by
  induction t using quoted_induction with
  | nil => rw [quoted_nil, quoted_nil]
  | named t gap name blanks rest h ih =>
    have hagain : NamedSubgraph (quoted t) [' '] name blanks (quoted rest) := {
      parts := quoted_of_named h
      gap_ne_nil := List.cons_ne_nil _ _
      isBlank_gap := List.forall_mem_singleton.2 (by decide)
      quote_not_mem := h.quote_not_mem
      lastBreak := throughLastBreak?_append_of_leading_eq h.lastBreak (tightens_quoted rest).leading_eq.symm }
    rw [quoted_of_named hagain, ih, ← quoted_of_named h]
  | other c t h ih =>
    have htight := (tightens_quoted t).keep c
    rw [quoted_cons h, quoted_cons, ih]
    intro gap name blanks rest hnamed
    obtain ⟨gap, name, blanks, rest, hnamed⟩ := hnamed.of_tightens htight
    exact h gap name blanks rest hnamed

end

end MermaidPress.Diagram
