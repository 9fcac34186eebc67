/-
What the issues of a source are that `check` reports, said of positions and occurrences. Each sign
that a check looks for at the head of a text is first taken apart into the pieces that it finds;
the pieces lie between positions of the source, and the other way round. So a check reports an
issue if and only if the source has it.
-/
import MermaidPress.Diagram.Issue
import MermaidPress.Proofs.Text.Occurrence
import MermaidPress.Proofs.Text.Position

namespace MermaidPress.Diagram

open Text

/-! ## What a source may have -/

/-- A group in parentheses between two positions: the second parenthesis is the first of its kind
behind the other. -/
structure GroupAt (t : Text) (i j : ℕ) : Prop where
  opening : t[i]? = some '('
  closing : t[j]? = some ')'
  first : AbsentBetween ')' t i j

/-- The source has the issue that `check` looks for. -/
def Issue.OccursIn (t : Text) : Issue → Prop
  | mathInParentheses => ∃ i k j, i < k ∧ k < j ∧ GroupAt t i j ∧
      ∃ c ∈ ['-', '+', '*', '/'], t[k]? = some c
  | hyphenInLabelParentheses => ∃ a b k d e, a < b ∧ b < k ∧ k < d ∧ d < e ∧
      t[a]? = some '[' ∧ AbsentBetween '\n' t a b ∧ GroupAt t b d ∧ t[k]? = some '-' ∧
      AbsentBetween '\n' t d e ∧ t[e]? = some ']'
  | malformedArrow => ∃ gap, (∀ b ∈ gap, isBlank b = true) ∧ arrow ++ gap ++ ['>'] <:+: t
  | unevenArrowSpacing => (∃ c, isBlank c = false ∧ arrow ++ [c] <:+: t) ∨
      ∃ b c, isBlank b = true ∧ isBlank c = true ∧ arrow ++ [b, c] <:+: t
  | unquotedSubgraph => ∃ gap c, gap ≠ [] ∧ (∀ b ∈ gap, isBlank b = true) ∧ c ≠ '"' ∧
      isBlank c = false ∧ "subgraph".toList ++ gap ++ [c] <:+: t

/-! ## What begins at the head of a text -/

variable {t : Text}

theorem group?_eq_some_iff {inner rest : Text} :
    group? t = some (inner, rest) ↔ t = '(' :: (inner ++ ')' :: rest) ∧ ')' ∉ inner := by
  constructor
  · intro h
    unfold group? at h
    split at h
    · obtain ⟨rfl, hinner⟩ := upTo?_eq_some h
      exact ⟨rfl, hinner⟩
    · cases h
  · rintro ⟨rfl, hinner⟩
    exact upTo?_append hinner rest

/-- Where the probe does not look at the character before, `alongLine` finds what is on the line. -/
theorem isSome_alongLine_iff {β : Type} {probe : Text → Option β} {previous : Char} :
    (alongLine (fun _ s => probe s) previous t).isSome ↔
      ∃ skipped s, t = skipped ++ s ∧ '\n' ∉ skipped ∧ (probe s).isSome := by
  constructor
  · intro h
    obtain ⟨⟨skipped, found⟩, hfound⟩ := Option.isSome_iff_exists.1 h
    obtain ⟨hline, _, s, rfl, hs⟩ := eq_append_of_alongLine hfound
    exact ⟨skipped, s, rfl, hline, Option.isSome_iff_exists.2 ⟨found, hs⟩⟩
  · rintro ⟨skipped, s, rfl, hline, hs⟩
    induction skipped generalizing previous with
    | nil =>
      cases s with
      | nil => simpa [alongLine] using hs
      | cons c s =>
        obtain ⟨found, hfound⟩ := Option.isSome_iff_exists.1 hs
        rw [List.nil_append, alongLine, hfound]
        rfl
    | cons c skipped ih =>
      obtain ⟨hc, hrest⟩ := not_or.1 (mt List.mem_cons.2 hline)
      rw [List.cons_append, alongLine]
      split
      · rfl
      · rw [if_neg (Ne.symm hc), Option.isSome_map]
        exact ih hrest

theorem isOperator_iff {c : Char} : isOperator c = true ↔ c ∈ ['-', '+', '*', '/'] := by
  simp [isOperator, or_assoc]

theorem mathBegins_iff : mathBegins t = true ↔
    ∃ inner rest, t = '(' :: (inner ++ ')' :: rest) ∧ ')' ∉ inner ∧
      ∃ c ∈ ['-', '+', '*', '/'], c ∈ inner := by
  constructor
  · intro h
    unfold mathBegins at h
    split at h
    · rename_i inner rest hgroup
      obtain ⟨ht, hinner⟩ := group?_eq_some_iff.1 hgroup
      obtain ⟨c, hmem, hc⟩ := List.any_eq_true.1 h
      exact ⟨inner, rest, ht, hinner, c, isOperator_iff.1 hc, hmem⟩
    · cases h
  · rintro ⟨inner, rest, ht, hinner, c, hc, hmem⟩
    rw [mathBegins, group?_eq_some_iff.2 ⟨ht, hinner⟩]
    exact List.any_eq_true.2 ⟨c, hmem, isOperator_iff.2 hc⟩

theorem throughLine?_isSome_iff {c : Char} : (throughLine? c t).isSome ↔
    ∃ before rest, t = before ++ c :: rest ∧ '\n' ∉ before := by
  unfold throughLine?
  rw [isSome_alongLine_iff]
  constructor
  · rintro ⟨before, s, rfl, hline, hs⟩
    obtain ⟨rest, rfl⟩ := after?_isSome_iff.1 hs
    exact ⟨before, rest, rfl, hline⟩
  · rintro ⟨before, rest, rfl, hline⟩
    exact ⟨before, c :: rest, rfl, hline, after?_isSome_iff.2 (List.prefix_append [c] rest)⟩

theorem isSome_hyphenGroup?_iff : (hyphenGroup? t).isSome ↔
    ∃ inner tail rest, t = '(' :: (inner ++ ')' :: (tail ++ ']' :: rest)) ∧
      ')' ∉ inner ∧ '-' ∈ inner ∧ '\n' ∉ tail := by
  constructor
  · intro h
    unfold hyphenGroup? at h
    split at h
    · rename_i inner behind hgroup
      obtain ⟨rfl, hinner⟩ := group?_eq_some_iff.1 hgroup
      split at h
      · rename_i hboth
        obtain ⟨hhyphen, hbehind⟩ := Bool.and_eq_true_iff.1 hboth
        obtain ⟨tail, rest, rfl, htail⟩ := throughLine?_isSome_iff.1 hbehind
        exact ⟨inner, tail, rest, rfl, hinner, List.contains_iff_mem.1 hhyphen, htail⟩
      · cases h
    · cases h
  · rintro ⟨inner, tail, rest, rfl, hinner, hhyphen, htail⟩
    have hbehind : (throughLine? ']' (tail ++ ']' :: rest)).isSome :=
      throughLine?_isSome_iff.2 ⟨tail, rest, rfl, htail⟩
    rw [hyphenGroup?, group?_eq_some_iff.2 ⟨rfl, hinner⟩]
    simp [hhyphen, hbehind]

theorem hyphenLabelBegins_iff : hyphenLabelBegins t = true ↔
    ∃ head inner tail rest,
      t = '[' :: (head ++ '(' :: (inner ++ ')' :: (tail ++ ']' :: rest))) ∧
      '\n' ∉ head ∧ ')' ∉ inner ∧ '-' ∈ inner ∧ '\n' ∉ tail := by
  constructor
  · intro h
    unfold hyphenLabelBegins at h
    split at h
    · obtain ⟨head, s, rfl, hhead, hs⟩ := isSome_alongLine_iff.1 h
      obtain ⟨inner, tail, rest, rfl, hgroup⟩ := isSome_hyphenGroup?_iff.1 hs
      exact ⟨head, inner, tail, rest, rfl, hhead, hgroup⟩
    · cases h
  · rintro ⟨head, inner, tail, rest, rfl, hhead, hgroup⟩
    exact isSome_alongLine_iff.2
      ⟨head, _, rfl, hhead, isSome_hyphenGroup?_iff.2 ⟨inner, tail, rest, rfl, hgroup⟩⟩

theorem malformedArrowBegins_iff : malformedArrowBegins t = true ↔
    ∃ behind, t = arrow ++ behind ∧ ['>'] <+: trimLeft behind := by
  unfold malformedArrowBegins afterDoubledHead?
  constructor
  · intro h
    obtain ⟨rest, hrest⟩ := Option.isSome_iff_exists.1 h
    obtain ⟨behind, hbehind, hhead⟩ := Option.bind_eq_some_iff.1 hrest
    exact ⟨behind, eq_append_of_after? hbehind, rest, (eq_append_of_after? hhead).symm⟩
  · rintro ⟨behind, rfl, hhead⟩
    have harrow : afterArrow? (arrow ++ behind) = some behind := after?_append arrow behind
    rw [harrow]
    exact after?_isSome_iff.2 hhead

theorem unevenArrowBegins_iff : unevenArrowBegins t = true ↔
    (∃ c, isBlank c = false ∧ arrow ++ [c] <+: t) ∨
      ∃ b c, isBlank b = true ∧ isBlank c = true ∧ arrow ++ [b, c] <+: t := by
  constructor
  · intro h
    unfold unevenArrowBegins at h
    split at h
    · cases h
    · cases h
    · rename_i b behind harrow
      have ht : t = arrow ++ b :: behind := eq_append_of_after? harrow
      cases hb : isBlank b with
      | false => exact .inl ⟨b, hb, behind, by simp [ht]⟩
      | true =>
        rw [hb] at h
        cases behind with
        | nil => cases h
        | cons c rest => exact .inr ⟨b, c, hb, h, rest, by simp [ht]⟩
  · have hbehind (behind : Text) : afterArrow? (arrow ++ behind) = some behind :=
      after?_append arrow behind
    rintro (⟨c, hc, rest, rfl⟩ | ⟨b, c, hb, hc, rest, rfl⟩)
    · rw [unevenArrowBegins, List.append_assoc, hbehind]
      simp [hc]
    · rw [unevenArrowBegins, List.append_assoc, hbehind]
      simp [hc]

theorem unquotedSubgraphBegins_iff : unquotedSubgraphBegins t = true ↔
    ∃ gap c, gap ≠ [] ∧ (∀ b ∈ gap, isBlank b = true) ∧ c ≠ '"' ∧ isBlank c = false ∧
      "subgraph".toList ++ gap ++ [c] <+: t := by
  constructor
  · intro h
    unfold unquotedSubgraphBegins at h
    split at h
    · cases h
    · rename_i behind hkeyword
      obtain ⟨hblank, hname⟩ := Bool.and_eq_true_iff.1 h
      obtain ⟨c, hhead, hc⟩ := (Option.any_eq_true _ _).1 hname
      obtain ⟨rest, hrest⟩ : ∃ rest, trimLeft behind = c :: rest := List.head?_eq_some_iff.1 hhead
      have hparts : leading behind ++ trimLeft behind = behind := takeWhile_append_trimLeft behind
      refine ⟨leading behind, c, fun hnil => ?_, fun _ => isBlank_of_mem_leading, by simpa using hc,
        isBlank_of_head?_trimLeft hhead, rest, ?_⟩
      · obtain ⟨b, hb, hbb⟩ := (Option.any_eq_true _ _).1 hblank
        obtain ⟨more, rfl⟩ := List.head?_eq_some_iff.1 hb
        rw [leading, List.takeWhile_cons_of_pos hbb] at hnil
        cases hnil
      · calc
          "subgraph".toList ++ leading behind ++ [c] ++ rest
              = "subgraph".toList ++ (leading behind ++ c :: rest) := by simp
          _ = t := by rw [← hrest, hparts, ← eq_append_of_after? hkeyword]
  · rintro ⟨gap, c, hne, hgap, hquote, hc, rest, rfl⟩
    have hkeyword := after?_append "subgraph".toList (gap ++ c :: rest)
    obtain ⟨b, gap, rfl⟩ := List.exists_cons_of_ne_nil hne
    have htrim : trimLeft (b :: gap ++ c :: rest) = c :: rest := by
      rw [trimLeft_append_of_blank hgap, trimLeft_cons_of_not_blank hc]
    have hparts : "subgraph".toList ++ (b :: gap) ++ [c] ++ rest =
        "subgraph".toList ++ (b :: gap ++ c :: rest) := by simp
    rw [unquotedSubgraphBegins, hparts, hkeyword]
    dsimp only
    rw [htrim]
    simp [hgap b List.mem_cons_self, hquote]

/-! ## Pieces and positions -/

theorem GroupAt.drop_eq {i j : ℕ} (h : GroupAt t i j) (hij : i < j) :
    t.drop i = '(' :: (between t i j ++ ')' :: t.drop (j + 1)) ∧ ')' ∉ between t i j := by
  rw [drop_of_getElem? h.opening, drop_eq_between_append hij, drop_of_getElem? h.closing]
  exact ⟨rfl, absentBetween_iff_notMem.1 h.first⟩

theorem groupAt_of_drop {i : ℕ} {inner rest : Text} (h : t.drop i = '(' :: (inner ++ ')' :: rest))
    (hinner : ')' ∉ inner) : GroupAt t i (i + 1 + inner.length) where
  opening := getElem?_of_drop h
  closing := getElem?_of_drop (drop_of_drop_append (drop_of_drop_cons h))
  first := absentBetween_iff_notMem.2 (by rwa [between_of_drop (drop_of_drop_cons h)])

theorem exists_mathBegins_iff : (∃ i, mathBegins (t.drop i) = true) ↔
    Issue.OccursIn t .mathInParentheses := by
  constructor
  · rintro ⟨i, hi⟩
    obtain ⟨inner, rest, hdrop, hinner, c, hc, hmem⟩ := mathBegins_iff.1 hi
    rw [← between_of_drop (drop_of_drop_cons hdrop), mem_between_iff] at hmem
    obtain ⟨k, hik, hkj, hk⟩ := hmem
    exact ⟨i, k, _, hik, hkj, groupAt_of_drop hdrop hinner, c, hc, hk⟩
  · rintro ⟨i, k, j, hik, hkj, hgroup, c, hc, hk⟩
    obtain ⟨hdrop, hinner⟩ := hgroup.drop_eq (by omega)
    have hmem : c ∈ between t i j := mem_between_iff.2 ⟨k, hik, hkj, hk⟩
    exact ⟨i, mathBegins_iff.2 ⟨_, _, hdrop, hinner, c, hc, hmem⟩⟩

theorem exists_hyphenLabelBegins_iff : (∃ i, hyphenLabelBegins (t.drop i) = true) ↔
    Issue.OccursIn t .hyphenInLabelParentheses := by
  constructor
  · rintro ⟨a, ha⟩
    obtain ⟨head, inner, tail, rest, hlabel, hhead, hinner, hhyphen, htail⟩ :=
      hyphenLabelBegins_iff.1 ha
    have hbehind := drop_of_drop_cons hlabel
    have hgroup := drop_of_drop_append hbehind
    have hinside := drop_of_drop_cons hgroup
    have hclosed := drop_of_drop_cons (drop_of_drop_append hinside)
    have hbracket := drop_of_drop_append hclosed
    rw [← between_of_drop hinside, mem_between_iff] at hhyphen
    rw [← between_of_drop hbehind, ← absentBetween_iff_notMem] at hhead
    rw [← between_of_drop hclosed, ← absentBetween_iff_notMem] at htail
    obtain ⟨k, hbk, hkd, hk⟩ := hhyphen
    exact ⟨a, _, k, _, _, by omega, hbk, hkd, by omega, getElem?_of_drop hlabel, hhead,
      groupAt_of_drop hgroup hinner, hk, htail, getElem?_of_drop hbracket⟩
  · rintro ⟨a, b, k, d, e, hab, hbk, hkd, hde, hlabel, hhead, hgroup, hk, htail, hbracket⟩
    obtain ⟨hdrop, hinner⟩ := hgroup.drop_eq (by omega)
    have hhyphen : '-' ∈ between t b d := mem_between_iff.2 ⟨k, hbk, hkd, hk⟩
    refine ⟨a, hyphenLabelBegins_iff.2 ⟨between t a b, between t b d, between t d e,
      t.drop (e + 1), ?_, absentBetween_iff_notMem.1 hhead, hinner, hhyphen, absentBetween_iff_notMem.1 htail⟩⟩
    rw [drop_of_getElem? hlabel, drop_eq_between_append hab, hdrop, drop_eq_between_append hde,
      drop_of_getElem? hbracket]

/-! ## What a check reports -/

theorem exists_malformedArrowBegins_iff : (∃ s ∈ ends t, malformedArrowBegins s = true) ↔
    Issue.OccursIn t .malformedArrow := by
  constructor
  · rintro ⟨s, hs, h⟩
    obtain ⟨behind, rfl, hhead⟩ := malformedArrowBegins_iff.1 h
    obtain ⟨gap, hgap, hstarts⟩ := (prefix_trimLeft_iff (by decide)).1 hhead
    refine ⟨gap, hgap, exists_end_prefix_iff.1 ⟨_, hs, ?_⟩⟩
    rwa [List.append_assoc, List.prefix_append_right_inj]
  · rintro ⟨gap, hgap, hinfix⟩
    obtain ⟨s, hs, rest, rfl⟩ := exists_end_prefix_iff.2 hinfix
    refine ⟨_, hs, malformedArrowBegins_iff.2 ⟨gap ++ ['>'] ++ rest, by simp, ?_⟩⟩
    exact (prefix_trimLeft_iff (by decide)).2 ⟨gap, hgap, List.prefix_append _ rest⟩

theorem exists_unevenArrowBegins_iff : (∃ s ∈ ends t, unevenArrowBegins s = true) ↔
    Issue.OccursIn t .unevenArrowSpacing := by
  constructor
  · rintro ⟨s, hs, h⟩
    rcases unevenArrowBegins_iff.1 h with ⟨c, hc, hstarts⟩ | ⟨b, c, hb, hc, hstarts⟩
    · exact .inl ⟨c, hc, exists_end_prefix_iff.1 ⟨s, hs, hstarts⟩⟩
    · exact .inr ⟨b, c, hb, hc, exists_end_prefix_iff.1 ⟨s, hs, hstarts⟩⟩
  · rintro (⟨c, hc, hinfix⟩ | ⟨b, c, hb, hc, hinfix⟩)
    · obtain ⟨s, hs, hstarts⟩ := exists_end_prefix_iff.2 hinfix
      exact ⟨s, hs, unevenArrowBegins_iff.2 (.inl ⟨c, hc, hstarts⟩)⟩
    · obtain ⟨s, hs, hstarts⟩ := exists_end_prefix_iff.2 hinfix
      exact ⟨s, hs, unevenArrowBegins_iff.2 (.inr ⟨b, c, hb, hc, hstarts⟩)⟩

theorem exists_unquotedSubgraphBegins_iff : (∃ s ∈ ends t, unquotedSubgraphBegins s = true) ↔
    Issue.OccursIn t .unquotedSubgraph := by
  constructor
  · rintro ⟨s, hs, h⟩
    obtain ⟨gap, c, hne, hgap, hquote, hc, hstarts⟩ := unquotedSubgraphBegins_iff.1 h
    exact ⟨gap, c, hne, hgap, hquote, hc, exists_end_prefix_iff.1 ⟨s, hs, hstarts⟩⟩
  · rintro ⟨gap, c, hne, hgap, hquote, hc, hinfix⟩
    obtain ⟨s, hs, hstarts⟩ := exists_end_prefix_iff.2 hinfix
    exact ⟨s, hs, unquotedSubgraphBegins_iff.2 ⟨gap, c, hne, hgap, hquote, hc, hstarts⟩⟩

theorem mem_check_iff_occursIn {issue : Issue} : issue ∈ check t ↔ issue.OccursIn t := by
  rw [mem_check]
  cases issue with
  | mathInParentheses => exact exists_end_iff.trans exists_mathBegins_iff
  | hyphenInLabelParentheses => exact exists_end_iff.trans exists_hyphenLabelBegins_iff
  | malformedArrow => exact exists_malformedArrowBegins_iff
  | unevenArrowSpacing => exact exists_unevenArrowBegins_iff
  | unquotedSubgraph => exact exists_unquotedSubgraphBegins_iff

theorem math_of_hyphenInLabel (h : Issue.OccursIn t .hyphenInLabelParentheses) :
    Issue.OccursIn t .mathInParentheses := by
  obtain ⟨a, b, k, d, e, -, hbk, hkd, -, -, -, hgroup, hk, -⟩ := h
  exact ⟨b, k, d, hbk, hkd, hgroup, '-', by simp, hk⟩

/-- **`check` is exact.** It reports each issue that the source has, once and in the fixed order,
and no other; a hyphen in the parentheses of a label is never reported alone. -/
theorem check_exact (source : Text) :
    (check source).Sublist [.mathInParentheses, .hyphenInLabelParentheses, .malformedArrow,
      .unevenArrowSpacing, .unquotedSubgraph] ∧
    (check source).Nodup ∧
    (∀ issue, issue ∈ check source ↔ issue.OccursIn source) ∧
    (.hyphenInLabelParentheses ∈ check source → .mathInParentheses ∈ check source) := by
  have horder := check_sublist source
  refine ⟨horder, horder.nodup (by decide), fun issue => mem_check_iff_occursIn, ?_⟩
  rw [mem_check_iff_occursIn, mem_check_iff_occursIn]
  exact math_of_hyphenInLabel

end MermaidPress.Diagram
