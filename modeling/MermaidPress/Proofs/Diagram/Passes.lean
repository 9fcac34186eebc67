/-
What the passes of the repair keep, one after the other. A repaired source ends in a tick only
where the source did: what a rule puts in ends in a bracket, a blank or a line break.
-/
import MermaidPress.Proofs.Diagram.Hit

namespace MermaidPress.Diagram

open Text

/-- What holds at the start and is kept by every `step` holds of the repair. -/
theorem repair_invariant {P : Repaired → Prop} {source : Text}
    (hstep : ∀ pass ∈ passes, ∀ state, P state → P (state.step pass))
    (hstart : P { source, changes := [] }) : P (repair source) :=
  List.foldlRecOn passes Repaired.step hstart fun state h pass hp => hstep pass hp state h

/-- What every pass keeps, `repair` keeps. -/
theorem repair_induction {P : Text → Prop} (hpass : ∀ pass ∈ passes, ∀ t, P t → P (pass t).1)
    {source : Text} (h : P source) : P (repair source).source :=
  repair_invariant (P := fun state => P state.source)
    (fun pass hp state hstate => hpass pass hp state.source hstate) h

theorem forall_passes {P : Text → Text → Prop}
    (h₁ : ∀ t, P t (replaceHits lineBreakLabel? t).1) (h₂ : ∀ t, P t (replaceHits formulaLabel? t).1)
    (h₃ : ∀ t, P t (replaceHits chainLabel? t).1) (h₄ : ∀ t, P t (replaceHits doubledArrow? t).1)
    (h₅ : ∀ t, P t (replaceHits looseArrow? t).1) (h₆ : ∀ t, P t (replaceHits quotedSubgraph? t).1) :
    ∀ pass ∈ passes, ∀ t, P t (pass t).1 := by
  intro pass hp t
  simp only [passes, List.mem_cons, List.not_mem_nil, or_false] at hp
  rcases hp with rfl | rfl | rfl | rfl | rfl | rfl
  · exact h₁ t
  · exact h₂ t
  · exact h₃ t
  · exact h₄ t
  · exact h₅ t
  · exact h₆ t

/-! ## Silence -/

theorem eq_self_of_isEmpty {find : (t : Text) → Option (Hit Unit t)} {t : Text}
    (h : (replaceHits find t).2.isEmpty) : (replaceHits find t).1 = t :=
  replaceHits_eq_self_of_notes (P := fun _ => False) (fun _ _ _ hf => hf.elim) (by
    rw [List.isEmpty_iff.1 h]
    simp)

/-- A chain that is left out of the report is left as it is. -/
theorem eq_append_of_note_eq_none {t : Text} {hit : Hit (Option Change) t}
    (h : chainLabel? t = some hit) (hnote : hit.note = none) : t = hit.replacement ++ hit.rest := by
  obtain ⟨head, chain, ht, hr, hn⟩ := chainLabel?_eq_some h
  by_cases hrange : isRange ('[' :: head ++ chain.written) chain
  · rw [hnote, if_pos hrange] at hn
    cases hn
  · rw [if_neg hrange] at hr
    rw [hr, ← ht]

theorem eq_self_of_pass : ∀ pass ∈ passes, ∀ t, (pass t).2 = [] → (pass t).1 = t := by
  intro pass hp t h
  simp only [passes, List.mem_cons, List.not_mem_nil, or_false] at hp
  rcases hp with rfl | rfl | rfl | rfl | rfl | rfl
  · exact eq_self_of_isEmpty (by simpa [unwrapBehindLineBreaks] using h)
  · exact eq_self_of_isEmpty (by simpa [unwrapFormulas] using h)
  · refine replaceHits_eq_self_of_notes (P := (· = none))
      (fun t hit => eq_append_of_note_eq_none) fun note hnote => ?_
    simpa using List.filterMap_eq_nil_iff.1 h note hnote
  · exact eq_self_of_isEmpty (by simpa [mendArrows] using h)
  · simpa [spaceArrows] using h
  · simpa [quoteSubgraphs] using h

theorem foldl_step_of_changes_eq_nil {run : List Pass} (hrun : run ⊆ passes) {source : Text}
    (h : (run.foldl Repaired.step { source, changes := [] }).changes = []) :
    (run.foldl Repaired.step { source, changes := [] }).source = source := by
  refine List.foldlRecOn (motive := fun state => state.changes = [] → state.source = source)
    run Repaired.step (fun _ => rfl) (fun state ih pass hp hchanges => ?_) h
  obtain ⟨hstate, hpass⟩ := List.append_eq_nil_iff.1 hchanges
  exact (eq_self_of_pass pass (hrun hp) state.source hpass).trans (ih hstate)

/-- A `repair` that reports nothing changes nothing. -/
theorem repair_of_changes_eq_nil {source : Text} (h : (repair source).changes = []) :
    (repair source).source = source :=
  foldl_step_of_changes_eq_nil (List.Subset.refl passes) h

/-! ## The last character -/

theorem suffix_of_trimLeft_eq {t : Text} (front : Text) {rest : Text} (h : trimLeft t = front ++ rest) :
    rest <:+ t :=
  (List.suffix_append front rest).trans (h ▸ List.dropWhile_suffix isBlank)

theorem endsOtherwise_lineBreakLabel? : EndsOtherwise lineBreakLabel? '`' := fun t hit h => by
  obtain ⟨head, middle, inner, tail, ht, hr⟩ := lineBreakLabel?_eq_some h
  exact ⟨⟨'[' :: head ++ lineBreak ++ middle ++ '(' :: inner ++ ')' :: tail ++ [']'], by simp [ht]⟩,
    ']', by rw [hr, List.getLast?_concat], by decide⟩

theorem endsOtherwise_formulaLabel? : EndsOtherwise formulaLabel? '`' := fun t hit h => by
  obtain ⟨head, formula, tail, ht, hr⟩ := formulaLabel?_eq_some h
  exact ⟨⟨'[' :: head ++ '(' :: formula ++ ')' :: tail ++ [']'], by simp [ht]⟩,
    ']', by rw [hr, List.getLast?_concat], by decide⟩

theorem endsOtherwise_chainLabel? : EndsOtherwise chainLabel? '`' := fun t hit h => by
  obtain ⟨head, chain, ht, hr, -⟩ := chainLabel?_eq_some h
  refine ⟨⟨'[' :: head ++ chain.written, ht.symm⟩, ']', ?_, by decide⟩
  rw [hr]
  refine getLast?_append_of_some ?_
  split
  · exact List.getLast?_concat
  · exact List.getLast?_concat

theorem endsOtherwise_doubledArrow? : EndsOtherwise doubledArrow? '`' := fun t hit h => by
  obtain ⟨u, ht, hu, hr⟩ := doubledArrow?_eq_some h
  have hrest : hit.rest <:+ u := suffix_of_trimLeft_eq ['>'] hu
  exact ⟨ht ▸ hrest.trans (List.suffix_append arrow u), ' ', by rw [hr]; rfl, by decide⟩

theorem endsOtherwise_looseArrow? : EndsOtherwise looseArrow? '`' := fun t hit h => by
  obtain ⟨rest, ht, hrest, hr⟩ := looseArrow?_eq_some h
  have hsuffix : rest <:+ t := suffix_of_trimLeft_eq _ ht
  exact ⟨hrest ▸ (List.dropWhile_suffix isBlank).trans hsuffix, ' ', by rw [hr]; rfl, by decide⟩

theorem endsOtherwise_quotedSubgraph? : EndsOtherwise quotedSubgraph? '`' := fun t hit h => by
  obtain ⟨gap, name, blanks, hnamed, hr⟩ := quotedSubgraph?_eq_some h
  refine ⟨⟨"subgraph".toList ++ gap ++ '"' :: name ++ '"' :: blanks, by simp [hnamed.parts]⟩, '\n',
    ?_, by decide⟩
  rw [hr]
  exact getLast?_append_of_some
    (getLast?_append_of_some (s := ['"']) (getLast?_of_throughLastBreak? hnamed.lastBreak))

theorem getLast?_of_repair {source : Text} (h : (repair source).source.getLast? = some '`') :
    source.getLast? = some '`' := by
  have hpass : ∀ pass ∈ passes, ∀ t, (pass t).1.getLast? = some '`' → t.getLast? = some '`' :=
    forall_passes (P := fun t out => out.getLast? = some '`' → t.getLast? = some '`')
      (fun _ => getLast?_of_replaceHits endsOtherwise_lineBreakLabel?)
      (fun _ => getLast?_of_replaceHits endsOtherwise_formulaLabel?)
      (fun _ => getLast?_of_replaceHits endsOtherwise_chainLabel?)
      (fun _ => getLast?_of_replaceHits endsOtherwise_doubledArrow?)
      (fun _ => getLast?_of_replaceHits endsOtherwise_looseArrow?)
      (fun _ => getLast?_of_replaceHits endsOtherwise_quotedSubgraph?)
  exact repair_induction (P := fun t => t.getLast? = some '`' → source.getLast? = some '`')
    (fun pass hp t ih h => ih (hpass pass hp t h)) id h

end MermaidPress.Diagram
