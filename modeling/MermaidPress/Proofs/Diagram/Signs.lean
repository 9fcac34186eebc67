/-
What a `repair` costs. Up to blanks each rule balances its hits: what it loses and gains is the
same every time. So the `signs` of a source, its opening parentheses, hyphens and arrow heads,
never become more, and each change that is not one of spacing is paid for with a sign.
-/
import Mathlib.Algebra.GroupWithZero.Nat
import MermaidPress.Proofs.Diagram.Passes

namespace MermaidPress.Diagram

open Text

variable {c : Char}

/-! ## The balance of the rules -/

theorem count_of_blank (hc : isBlank c = false) {blanks : Text}
    (h : ∀ b ∈ blanks, isBlank b = true) : blanks.count c = 0 :=
  List.count_eq_zero.2 (notMem_of_blank h hc)

theorem count_trimLeft (hc : isBlank c = false) (t : Text) : (trimLeft t).count c = t.count c := by
  have hlead : (t.takeWhile isBlank).count c = 0 :=
    count_of_blank hc fun _ => isBlank_of_mem_leading
  have hparts := congrArg (List.count c) (takeWhile_append_trimLeft t)
  rw [List.count_append, hlead, Nat.zero_add] at hparts
  exact hparts

theorem count_cons_of_blank (hc : isBlank c = false) {b : Char} (hb : isBlank b = true) (t : Text) :
    (b :: t).count c = t.count c :=
  List.count_cons_of_ne fun heq => by
    rw [heq, hc] at hb
    cases hb

theorem balances_lineBreakLabel? :
    Balances lineBreakLabel? (fun _ => []) (fun _ => ['(', ')']) := fun t hit h c _ => by
  obtain ⟨head, middle, inner, tail, ht, hr⟩ := lineBreakLabel?_eq_some h
  have ht := congrArg (List.count c) ht
  rw [hr]
  simp only [List.count_append, List.count_cons, List.count_nil] at ht ⊢
  omega

theorem balances_formulaLabel? :
    Balances formulaLabel? (fun _ => []) (fun _ => ['(', ')']) := fun t hit h c _ => by
  obtain ⟨head, formula, tail, ht, hr⟩ := formulaLabel?_eq_some h
  have ht := congrArg (List.count c) ht
  rw [hr]
  simp only [List.count_append, List.count_cons, List.count_nil] at ht ⊢
  omega

theorem balances_chainLabel? :
    Balances chainLabel? (fun note => if note.isSome then " to  to ".toList else [])
      (fun note => if note.isSome then ['-', '-'] else []) := fun t hit h c _ => by
  obtain ⟨head, chain, ht, hr, hn⟩ := chainLabel?_eq_some h
  have ht := congrArg (List.count c) ht
  by_cases hrange : isRange ('[' :: head ++ chain.written) chain
  · rw [if_pos hrange] at hr hn
    have hjoin : " to  to ".toList.count c = 2 * " to ".toList.count c := by
      have hsplit : " to  to ".toList = " to ".toList ++ " to ".toList := rfl
      rw [hsplit, List.count_append]
      omega
    rw [hr, hn]
    simp only [Option.isSome_some, if_true, Chain.written, Chain.spelledOut, List.count_append,
      List.count_cons, List.count_nil, hjoin] at ht ⊢
    omega
  · rw [if_neg hrange] at hr hn
    rw [hr, hn]
    simp only [Option.isSome_none, Bool.false_eq_true, if_false, List.count_append,
      List.count_cons, List.count_nil] at ht ⊢
    omega

theorem count_spacedArrow (hc : isBlank c = false) : spacedArrow.count c = arrow.count c := by
  have hspace : isBlank ' ' = true := by decide
  have hsplit : spacedArrow = ' ' :: (arrow ++ [' ']) := rfl
  rw [hsplit, count_cons_of_blank hc hspace, List.count_append, count_cons_of_blank hc hspace]
  rfl

theorem balances_doubledArrow? :
    Balances doubledArrow? (fun _ => []) (fun _ => ['>']) := fun t hit h c hc => by
  obtain ⟨u, ht, hu, hr⟩ := doubledArrow?_eq_some h
  have ht := congrArg (List.count c) ht
  have hu := congrArg (List.count c) hu
  rw [count_trimLeft hc, ← List.singleton_append] at hu
  rw [hr, count_spacedArrow hc]
  simp only [List.count_append, List.count_nil] at ht hu ⊢
  omega

theorem balances_looseArrow? :
    Balances looseArrow? (fun _ => []) (fun _ => []) := fun t hit h c hc => by
  obtain ⟨rest, ht, hrest, hr⟩ := looseArrow?_eq_some h
  have ht := congrArg (List.count c) ht
  rw [count_trimLeft hc, List.count_append] at ht
  rw [hr, hrest, count_spacedArrow hc, count_trimLeft hc, ht]

theorem balances_quotedSubgraph? :
    Balances quotedSubgraph? (fun _ => []) (fun _ => []) := fun t hit h c hc => by
  obtain ⟨gap, name, blanks, hnamed, hr⟩ := quotedSubgraph?_eq_some h
  have ht := congrArg (List.count c) hnamed.parts
  have hspace : isBlank ' ' = true := by decide
  have hquote : " \"".toList.count c = ['"'].count c := count_cons_of_blank hc hspace ['"']
  rw [hr]
  simp only [List.count_append, List.count_cons, List.count_nil, hquote,
    count_of_blank hc hnamed.isBlank_gap] at ht ⊢
  omega

/-! ## Signs -/

/-- The number of opening parentheses, hyphens and arrow heads. -/
def signs (t : Text) : Nat := t.count '(' + t.count '-' + t.count '>'

@[simp] theorem signs_append (s t : Text) : signs (s ++ t) = signs s + signs t := by
  simp only [signs, List.count_append]
  omega

theorem signs_of_blank {t : Text} (h : ∀ c ∈ t, isBlank c = true) : signs t = 0 := by
  rw [signs, count_of_blank (by decide) h, count_of_blank (by decide) h, count_of_blank (by decide) h]

/-- A change of spacing alone. -/
def Change.isSpacing : Change → Bool
  | arrowsSpaced | subgraphsQuoted => true
  | _ => false

/-- The number of changes that are not `isSpacing`. -/
def mends (changes : List Change) : Nat := changes.countP fun change => !change.isSpacing

theorem mends_eq_zero_iff {changes : List Change} :
    mends changes = 0 ↔ ∀ change ∈ changes, change.isSpacing = true := by
  rw [mends, List.countP_eq_zero]
  simp

theorem signs_flatMap_add_le {α : Type} {gain loss : α → Text} {toll : α → Nat}
    (h : ∀ note, signs (gain note) + toll note ≤ signs (loss note)) (notes : List α) :
    signs (notes.flatMap gain) + (notes.map toll).sum ≤ signs (notes.flatMap loss) := by
  induction notes with
  | nil => exact Nat.le_refl 0
  | cons note notes ih =>
    have hnote := h note
    simp only [List.flatMap_cons, List.map_cons, List.sum_cons, signs_append]
    omega

/-- A text pays for its hits, for each as many `signs` as the hit loses more than it gains. -/
theorem signs_replaceHits_le {α : Type} {find : (t : Text) → Option (Hit α t)}
    {gain loss : α → Text} (h : Balances find gain loss) (toll : α → Nat)
    (htoll : ∀ note, signs (gain note) + toll note ≤ signs (loss note)) (t : Text) :
    signs (replaceHits find t).1 + ((replaceHits find t).2.map toll).sum ≤ signs t := by
  have hsum := signs_flatMap_add_le htoll (replaceHits find t).2
  have hopen := h.count_replaceHits (c := '(') (by decide) t
  have hhyphen := h.count_replaceHits (c := '-') (by decide) t
  have hhead := h.count_replaceHits (c := '>') (by decide) t
  simp only [signs] at hsum ⊢
  omega

/-! ## The cost of a pass -/

@[simp] theorem mends_append (changes more : List Change) :
    mends (changes ++ more) = mends changes + mends more := List.countP_append

theorem mends_singleton_le (change : Change) : mends [change] ≤ 1 := List.countP_le_length

theorem mends_report_le (hits : List Unit) (change : Change) :
    mends (if hits.isEmpty then [] else [change]) ≤ (hits.map fun _ => 1).sum := by
  cases hits with
  | nil => exact Nat.le_refl 0
  | cons hit hits =>
    have hone := mends_singleton_le change
    simp only [List.isEmpty_cons, Bool.false_eq_true, if_false, List.map_cons, List.sum_cons]
    omega

theorem mends_filterMap (hits : List (Option Change)) :
    mends (hits.filterMap id) = (hits.map fun note => mends note.toList).sum := by
  induction hits with
  | nil => rfl
  | cons note hits ih =>
    rw [List.map_cons, List.sum_cons, ← ih]
    cases note with
    | none => exact (Nat.zero_add _).symm
    | some change => exact mends_append [change] (hits.filterMap id)

/-- A rule whose hits are reported in one pays for the report where each hit loses a sign. -/
theorem signs_reported_le {find : (t : Text) → Option (Hit Unit t)} {gain loss : Unit → Text}
    (h : Balances find gain loss) (hpaid : ∀ note, signs (gain note) + 1 ≤ signs (loss note))
    (change : Change) (t : Text) : signs (replaceHits find t).1 +
      mends (if (replaceHits find t).2.isEmpty then [] else [change]) ≤ signs t :=
  Nat.le_trans (Nat.add_le_add_left (mends_report_le _ _) _)
    (signs_replaceHits_le h (fun _ => 1) hpaid t)

theorem signs_respaced_le {find : (t : Text) → Option (Hit Unit t)}
    (h : Balances find (fun _ => []) fun _ => []) {change : Change} (hspacing : change.isSpacing = true)
    (p : Prop) [Decidable p] (t : Text) :
    signs (replaceHits find t).1 + mends (if p then [] else [change]) ≤ signs t := by
  have hmends : mends (if p then [] else [change]) = 0 := by
    split
    · rfl
    · simp [mends, hspacing]
  rw [hmends]
  exact Nat.le_trans (Nat.le_add_right _ _)
    (signs_replaceHits_le h (fun _ => 0) (fun _ => Nat.le_refl 0) t)

theorem signs_spellOutRanges_le (t : Text) :
    signs (spellOutRanges t).1 + mends (spellOutRanges t).2 ≤ signs t := by
  have htoll : ∀ note : Option Change,
      signs (if note.isSome then " to  to ".toList else []) + mends note.toList ≤
        signs (if note.isSome then ['-', '-'] else []) := fun note => by
    cases note with
    | none => exact Nat.le_refl 0
    | some change =>
      have hlost : signs " to  to ".toList + 1 ≤ signs ['-', '-'] := by decide
      exact Nat.le_trans (Nat.add_le_add_left (mends_singleton_le change) _) hlost
  have hsigns := signs_replaceHits_le balances_chainLabel? _ htoll t
  rw [← mends_filterMap] at hsigns
  exact hsigns

/-- A change that is not of spacing costs a sign. -/
theorem signs_pass : ∀ pass ∈ passes, ∀ t, signs (pass t).1 + mends (pass t).2 ≤ signs t := by
  intro pass hp t
  simp only [passes, List.mem_cons, List.not_mem_nil, or_false] at hp
  rcases hp with rfl | rfl | rfl | rfl | rfl | rfl
  · exact signs_reported_le balances_lineBreakLabel? (fun _ => by decide) _ t
  · exact signs_reported_le balances_formulaLabel? (fun _ => by decide) _ t
  · exact signs_spellOutRanges_le t
  · exact signs_reported_le balances_doubledArrow? (fun _ => by decide) _ t
  · exact signs_respaced_le balances_looseArrow? rfl _ t
  · exact signs_respaced_le balances_quotedSubgraph? rfl _ t

/-- **`repair` pays a sign for each change that is not of spacing.** -/
theorem signs_repair (source : Text) :
    signs (repair source).source + mends (repair source).changes ≤ signs source := by
  refine repair_invariant (P := fun state => signs state.source + mends state.changes ≤ signs source)
    (fun pass hp state ih => ?_) (Nat.le_refl _)
  have hpass := signs_pass pass hp state.source
  have hmends : mends (state.step pass).changes = mends state.changes + mends (pass state.source).2 :=
    mends_append _ _
  rw [hmends]
  dsimp only [Repaired.step]
  omega

end MermaidPress.Diagram
