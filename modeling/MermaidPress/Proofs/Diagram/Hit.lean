/-
What each rule of the repair finds and what it puts there: one lemma for each rule, which says
how the text falls apart at a hit. Later facts about the rules rest on these alone.
-/
import MermaidPress.Diagram.Repair
import MermaidPress.Proofs.Text.Occurrence
import MermaidPress.Proofs.Text.Replacement
import MermaidPress.Proofs.Text.Trim

namespace MermaidPress.Diagram

open Text

theorem lineBreakLabel?_eq_some {t : Text} {hit : Hit Unit t} (h : lineBreakLabel? t = some hit) :
    ∃ head middle inner tail,
      t = '[' :: head ++ lineBreak ++ middle ++ '(' :: inner ++ ')' :: tail ++ ']' :: hit.rest ∧
      hit.replacement = '[' :: head ++ lineBreak ++ middle ++ inner ++ tail ++ [']'] := by
  unfold lineBreakLabel? at h
  split at h <;> try contradiction
  split at h <;> try contradiction
  rename_i head u hb
  split at h <;> try contradiction
  rename_i middle inner tail rest hg
  obtain rfl := Option.some.inj h
  obtain ⟨_, _, s, rfl, hs⟩ := eq_append_of_alongLine hb
  obtain ⟨_, _, v, rfl, hv⟩ := eq_append_of_alongLine hg
  refine ⟨head, middle, inner, tail, ?_, rfl⟩
  dsimp only
  rw [eq_append_of_after? hs, eq_of_closedGroup? hv]
  simp

theorem formulaLabel?_eq_some {t : Text} {hit : Hit Unit t} (h : formulaLabel? t = some hit) :
    ∃ head formula tail,
      t = '[' :: head ++ '(' :: formula ++ ')' :: tail ++ ']' :: hit.rest ∧
      hit.replacement = '[' :: head ++ formula ++ tail ++ [']'] := by
  unfold formulaLabel? at h
  split at h <;> try contradiction
  split at h <;> try contradiction
  rename_i head formula tail rest hf
  obtain rfl := Option.some.inj h
  obtain ⟨_, _, s, rfl, hs⟩ := eq_append_of_alongLine hf
  refine ⟨head, formula, tail, ?_, rfl⟩
  dsimp only
  rw [eq_of_formula? hs]
  simp

theorem chainLabel?_eq_some {t : Text} {hit : Hit (Option Change) t}
    (h : chainLabel? t = some hit) :
    ∃ head chain,
      t = '[' :: head ++ chain.written ++ hit.rest ∧
      (hit.replacement = '[' :: head ++
        if isRange ('[' :: head ++ chain.written) chain then chain.spelledOut
        else chain.written) ∧
      hit.note = if isRange ('[' :: head ++ chain.written) chain then
        some (.rangeSpelledOut chain.first chain.middle chain.last) else none := by
  unfold chainLabel? at h
  split at h <;> try contradiction
  split at h <;> try contradiction
  rename_i head chain hc
  obtain rfl := Option.some.inj h
  obtain ⟨_, _, s, rfl, hs⟩ := eq_append_of_alongLine hc
  refine ⟨head, chain, ?_, ?_, rfl⟩
  · dsimp only
    rw [eq_of_chain? hs]
    simp
  · dsimp only
    split <;> rfl

theorem doubledArrow?_eq_some {t : Text} {hit : Hit Unit t} (h : doubledArrow? t = some hit) :
    ∃ u, t = arrow ++ u ∧ trimLeft u = '>' :: hit.rest ∧ hit.replacement = spacedArrow := by
  unfold doubledArrow? at h
  split at h <;> try contradiction
  rename_i rest hr
  obtain rfl := Option.some.inj h
  obtain ⟨u, hu, hr⟩ := Option.bind_eq_some_iff.1 hr
  exact ⟨u, eq_append_of_after? hu, eq_append_of_after? hr, rfl⟩

theorem looseArrow?_eq_some {t : Text} {hit : Hit Unit t} (h : looseArrow? t = some hit) :
    ∃ rest, trimLeft t = arrow ++ rest ∧ hit.rest = trimLeft rest ∧
      hit.replacement = spacedArrow := by
  unfold looseArrow? at h
  split at h <;> try contradiction
  rename_i rest hr
  obtain rfl := Option.some.inj h
  exact ⟨rest, eq_append_of_after? hr, rfl, rfl⟩

theorem getLast?_of_throughLastBreak? {t blanks rest : Text}
    (h : throughLastBreak? t = some (blanks, rest)) : blanks.getLast? = some '\n' := by
  unfold throughLastBreak? at h
  dsimp only at h
  split at h
  · cases h
  · rename_i hne
    obtain ⟨rfl, -⟩ := Prod.mk.inj (Option.some.inj h)
    have := List.head?_dropWhile_not (· != '\n') (t.takeWhile isBlank).reverse
    rw [List.getLast?_reverse]
    cases hbefore : (t.takeWhile isBlank).reverse.dropWhile (· != '\n') with
    | nil => exact absurd hbefore hne
    | cons c before =>
      rw [hbefore] at this
      simpa using this

theorem isBlank_of_mem_throughLastBreak? {t blanks rest : Text}
    (h : throughLastBreak? t = some (blanks, rest)) {c : Char} (hc : c ∈ blanks) :
    isBlank c = true := by
  unfold throughLastBreak? at h
  dsimp only at h
  split at h
  · cases h
  · obtain ⟨rfl, -⟩ := Prod.mk.inj (Option.some.inj h)
    have hmem := (List.dropWhile_suffix (· != '\n')).subset (List.mem_reverse.1 hc)
    exact List.all_eq_true.1 List.all_takeWhile c (List.mem_reverse.1 hmem)

/-- The text begins with a subgraph that has a quoted name and ends its line: the blanks before the
name, the name, and the blanks behind it up to the last line break among them. -/
structure NamedSubgraph (t gap name blanks rest : Text) : Prop where
  parts : t = "subgraph".toList ++ (gap ++ '"' :: (name ++ '"' :: (blanks ++ rest)))
  gap_ne_nil : gap ≠ []
  isBlank_gap : ∀ c ∈ gap, isBlank c = true
  quote_not_mem : '"' ∉ name
  lastBreak : throughLastBreak? (blanks ++ rest) = some (blanks, rest)

theorem quotedSubgraph?_eq_some {t : Text} {hit : Hit Unit t} (h : quotedSubgraph? t = some hit) :
    ∃ gap name blanks, NamedSubgraph t gap name blanks hit.rest ∧
      hit.replacement = "subgraph".toList ++ " \"".toList ++ name ++ '"' :: blanks := by
  unfold quotedSubgraph? at h
  dsimp only at h
  split at h <;> try contradiction
  rename_i c u hk
  split at h <;> try contradiction
  rename_i hc
  split at h <;> try contradiction
  rename_i v hq
  split at h <;> try contradiction
  rename_i name w hn
  split at h <;> try contradiction
  rename_i blanks rest hb
  obtain rfl := Option.some.inj h
  obtain ⟨hv, hname⟩ := upTo?_eq_some hn
  have hw := eq_append_of_throughLastBreak? hb
  have hu : leading u ++ trimLeft u = u := takeWhile_append_trimLeft u
  rw [eq_append_of_after? hq, hv, hw] at hu
  have ht := eq_append_of_after? hk
  rw [← hu] at ht
  exact ⟨c :: leading u, name, blanks, {
    parts := ht
    gap_ne_nil := List.cons_ne_nil _ _
    isBlank_gap := List.forall_mem_cons.2 ⟨hc, fun _ => isBlank_of_mem_leading⟩
    quote_not_mem := hname
    lastBreak := hw ▸ hb }, rfl⟩

/-- `quotedSubgraph?` finds every such subgraph. -/
theorem NamedSubgraph.exists_hit {t gap name blanks rest : Text}
    (h : NamedSubgraph t gap name blanks rest) :
    ∃ hit, quotedSubgraph? t = some hit ∧ hit.rest = rest ∧
      hit.replacement = "subgraph".toList ++ " \"".toList ++ name ++ '"' :: blanks := by
  obtain ⟨c, gap, rfl⟩ := List.exists_cons_of_ne_nil h.gap_ne_nil
  obtain ⟨hc, hgap⟩ := List.forall_mem_cons.1 h.isBlank_gap
  have hk := after?_append "subgraph".toList (c :: gap ++ '"' :: (name ++ '"' :: (blanks ++ rest)))
  rw [← h.parts, List.cons_append] at hk
  have hq : after? ['"'] (trimLeft (gap ++ '"' :: (name ++ '"' :: (blanks ++ rest)))) =
      some (name ++ '"' :: (blanks ++ rest)) := by
    rw [trimLeft_append_of_blank hgap, trimLeft_cons_of_not_blank (by decide)]
    exact after?_append ['"'] _
  generalize gap ++ '"' :: (name ++ '"' :: (blanks ++ rest)) = u at hk hq
  have hn := upTo?_append h.quote_not_mem (blanks ++ rest)
  unfold quotedSubgraph?
  dsimp only
  split
  · rename_i hnone
    rw [hk] at hnone
    cases hnone
  · rename_i hnil
    rw [hk] at hnil
    cases hnil
  rename_i hcons
  rw [hk] at hcons
  obtain ⟨rfl, rfl⟩ := List.cons.inj (Option.some.inj hcons)
  rw [if_pos hc]
  split
  · rename_i hnone
    rw [hq] at hnone
    cases hnone
  rename_i hv
  rw [hq] at hv
  obtain rfl := Option.some.inj hv
  split
  · rename_i hnone
    rw [hn] at hnone
    cases hnone
  rename_i hname
  rw [hn] at hname
  obtain ⟨rfl, rfl⟩ := Prod.mk.inj (Option.some.inj hname)
  split
  · rename_i hnone
    rw [h.lastBreak] at hnone
    cases hnone
  rename_i hbreak
  rw [h.lastBreak] at hbreak
  obtain ⟨rfl, rfl⟩ := Prod.mk.inj (Option.some.inj hbreak)
  exact ⟨_, rfl, rfl, rfl⟩

end MermaidPress.Diagram
