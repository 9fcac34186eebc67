/-
What replacing hits keeps. The facts here hold for any rule whose hits lie at the front of the
text, so that what is behind a hit is an end of the text.
-/
import MermaidPress.Text.Blank
import MermaidPress.Text.Replacement

namespace MermaidPress.Text

variable {α : Type} {find : (t : Text) → Option (Hit α t)}

theorem replaceHits_of_hit {c : Char} {t : Text} {hit : Hit α (c :: t)}
    (h : find (c :: t) = some hit) :
    replaceHits find (c :: t) =
      (hit.replacement ++ (replaceHits find hit.rest).1,
        hit.note :: (replaceHits find hit.rest).2) := by
  rw [replaceHits]
  simp only [h]

theorem replaceHits_of_none {c : Char} {t : Text} (h : find (c :: t) = none) :
    replaceHits find (c :: t) = (c :: (replaceHits find t).1, (replaceHits find t).2) := by
  rw [replaceHits]
  simp only [h]

theorem fst_replaceHits_of_hit {t : Text} {hit : Hit α t} (h : find t = some hit) :
    (replaceHits find t).1 = hit.replacement ++ (replaceHits find hit.rest).1 := by
  cases t with
  | nil => exact absurd hit.shorter (Nat.not_lt_zero _)
  | cons c t => rw [replaceHits_of_hit h]

theorem fst_replaceHits_of_none {c : Char} {t : Text} (h : find (c :: t) = none) :
    (replaceHits find (c :: t)).1 = c :: (replaceHits find t).1 := by
  rw [replaceHits_of_none h]

/-- Induction along `replaceHits`: at a hit it goes on behind the hit, and elsewhere with the next
character. -/
@[elab_as_elim]
theorem replaceHits_induction {P : Text → Prop} (find : (t : Text) → Option (Hit α t)) (nil : P [])
    (hit : ∀ t hit, find t = some hit → P hit.rest → P t)
    (other : ∀ c t, find (c :: t) = none → P t → P (c :: t)) (t : Text) : P t := by
  fun_induction replaceHits find t with
  | case1 => exact nil
  | case2 c t found hfound out notes hout ih => exact hit _ found hfound ih
  | case3 c t hnone out notes hout ih => exact other c t hnone ih

theorem forall_mem_notes {P : α → Prop} (h : ∀ t hit, find t = some hit → P hit.note) (t : Text) :
    ∀ note ∈ (replaceHits find t).2, P note := by
  fun_induction replaceHits find t with
  | case1 => simp
  | case2 x t hit hx out notes hout ih =>
    rw [hout] at ih
    exact List.forall_mem_cons.2 ⟨h _ hit hx, ih⟩
  | case3 x t hx out notes hout ih =>
    rw [hout] at ih
    exact ih

/-- `replaceHits` leaves a text as it is where each hit puts there what it found. -/
theorem replaceHits_eq_self_of_notes {P : α → Prop}
    (hquiet : ∀ t hit, find t = some hit → P hit.note → t = hit.replacement ++ hit.rest)
    {t : Text} (h : ∀ note ∈ (replaceHits find t).2, P note) : (replaceHits find t).1 = t := by
  fun_induction replaceHits find t with
  | case1 => rfl
  | case2 x t hit hx out notes hout ih =>
    obtain ⟨hnote, hnotes⟩ := List.forall_mem_cons.1 h
    rw [hout] at ih
    calc
      hit.replacement ++ out = hit.replacement ++ hit.rest := by rw [← ih hnotes]
      _ = x :: t := (hquiet _ hit hx hnote).symm
  | case3 x t hx out notes hout ih =>
    rw [hout] at ih
    rw [← ih h]

/-- Up to blanks each hit of `find` holds the same characters before and after, its `gain` and its
`loss` aside. -/
def Balances (find : (t : Text) → Option (Hit α t)) (gain loss : α → Text) : Prop :=
  ∀ t hit, find t = some hit → ∀ c, isBlank c = false →
    t.count c + (gain hit.note).count c =
      hit.replacement.count c + hit.rest.count c + (loss hit.note).count c

/-- What the hits gain and lose, `replaceHits` gains and loses. -/
theorem Balances.count_replaceHits {gain loss : α → Text} (h : Balances find gain loss) {c : Char}
    (hc : isBlank c = false) (t : Text) :
    t.count c + ((replaceHits find t).2.flatMap gain).count c =
      (replaceHits find t).1.count c + ((replaceHits find t).2.flatMap loss).count c := by
  fun_induction replaceHits find t with
  | case1 => rfl
  | case2 x t hit hx out notes hout ih =>
    have hhit := h _ hit hx c hc
    simp only [hout] at ih
    simp only [List.flatMap_cons, List.count_append]
    omega
  | case3 x t hx out notes hout ih =>
    simp only [hout] at ih
    simp only [List.count_cons]
    omega

theorem getLast?_append_of_some {s t : Text} {c : Char} (h : t.getLast? = some c) :
    (s ++ t).getLast? = some c := by
  rw [List.getLast?_append, h]
  rfl

theorem getLast?_of_suffix {s t : Text} {c : Char} (h : s <:+ t) (hs : s.getLast? = some c) :
    t.getLast? = some c := by
  obtain ⟨front, rfl⟩ := h
  exact getLast?_append_of_some hs

/-- The hits of `find` end in characters other than `c`. -/
def EndsOtherwise (find : (t : Text) → Option (Hit α t)) (c : Char) : Prop :=
  ∀ t hit, find t = some hit →
    hit.rest <:+ t ∧ ∃ d, hit.replacement.getLast? = some d ∧ d ≠ c

theorem eq_nil_of_replaceHits_eq_nil {c : Char} (hfind : EndsOtherwise find c) {t : Text}
    (h : (replaceHits find t).1 = []) : t = [] := by
  cases t with
  | nil => rfl
  | cons x t =>
    cases hx : find (x :: t) with
    | none =>
      rw [replaceHits_of_none hx] at h
      cases h
    | some hit =>
      rw [replaceHits_of_hit hx] at h
      obtain ⟨-, d, hd, -⟩ := hfind _ hit hx
      rw [(List.append_eq_nil_iff.1 h).1] at hd
      cases hd

/-- A last character that no replacement has was there before. -/
theorem getLast?_of_replaceHits {c : Char} (hfind : EndsOtherwise find c) {t : Text}
    (h : (replaceHits find t).1.getLast? = some c) : t.getLast? = some c := by
  fun_induction replaceHits find t with
  | case1 => exact h
  | case2 x t hit hx out notes hout ih =>
    obtain ⟨hsuffix, d, hd, hne⟩ := hfind _ hit hx
    rw [List.getLast?_append] at h
    rw [hout] at ih
    cases hlast : out.getLast? with
    | none =>
      rw [hlast, hd] at h
      exact absurd (Option.some.inj h) hne
    | some y =>
      rw [hlast] at h
      exact getLast?_of_suffix hsuffix (ih (hlast.trans h))
  | case3 x t hx out notes hout ih =>
    rw [List.getLast?_cons] at h ⊢
    rw [hout] at ih
    cases hlast : out.getLast? with
    | none =>
      have ht : t = [] := eq_nil_of_replaceHits_eq_nil hfind (by
        rw [hout]
        exact List.getLast?_eq_none_iff.1 hlast)
      rw [hlast] at h
      rw [ht]
      exact h
    | some y =>
      rw [hlast] at h
      rw [ih (hlast.trans h)]
      rfl

end MermaidPress.Text
