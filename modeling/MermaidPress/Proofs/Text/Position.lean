/-
Positions in a text, counted in characters. What is behind a position is an end of the text; it
falls apart into what stands strictly between the position and a later one, and what is behind that.
-/
import Mathlib.Data.List.Basic
import MermaidPress.Proofs.Text.Trim

namespace MermaidPress.Text

variable {c : Char} {t : Text} {i j : ℕ}

/-! ## Between two positions -/

/-- The character does not stand strictly between two positions. -/
def AbsentBetween (c : Char) (t : Text) (i j : ℕ) : Prop := ∀ k, i < k → k < j → t[k]? ≠ some c

/-- What stands strictly between two positions. -/
def between (t : Text) (i j : ℕ) : Text := (t.drop (i + 1)).take (j - (i + 1))

theorem mem_between_iff : c ∈ between t i j ↔ ∃ k, i < k ∧ k < j ∧ t[k]? = some c := by
  rw [between, List.mem_iff_getElem?]
  constructor
  · rintro ⟨k, hk⟩
    rw [List.getElem?_take] at hk
    split at hk
    · rw [List.getElem?_drop] at hk
      exact ⟨i + 1 + k, by omega, by omega, hk⟩
    · cases hk
  · rintro ⟨k, hik, hkj, hk⟩
    refine ⟨k - (i + 1), ?_⟩
    have hsame : i + 1 + (k - (i + 1)) = k := by omega
    rw [List.getElem?_take, if_pos (by omega), List.getElem?_drop, hsame, hk]

theorem absentBetween_iff_notMem : AbsentBetween c t i j ↔ c ∉ between t i j := by
  rw [mem_between_iff]
  unfold AbsentBetween
  push Not
  exact Iff.rfl

theorem drop_eq_between_append (h : i < j) : t.drop (i + 1) = between t i j ++ t.drop j := by
  have hsame : i + 1 + (j - (i + 1)) = j := by omega
  have hbehind : t.drop j = (t.drop (i + 1)).drop (j - (i + 1)) := by rw [List.drop_drop, hsame]
  rw [between, hbehind, List.take_append_drop]

theorem between_of_drop {w s : Text} (h : t.drop (i + 1) = w ++ s) :
    between t i (i + 1 + w.length) = w := by
  rw [between, h, Nat.add_sub_cancel_left, List.take_left]

/-! ## Ends -/

theorem getElem?_of_drop {s : Text} (h : t.drop i = c :: s) : t[i]? = some c := by
  rw [← List.head?_drop, h]
  rfl

theorem drop_of_getElem? (h : t[i]? = some c) : t.drop i = c :: t.drop (i + 1) := by
  obtain ⟨hlt, rfl⟩ := List.getElem?_eq_some_iff.1 h
  exact List.drop_eq_getElem_cons hlt

theorem drop_of_drop_append {w s : Text} (h : t.drop i = w ++ s) : t.drop (i + w.length) = s := by
  rw [← List.drop_drop, h, List.drop_left]

theorem drop_of_drop_cons {s : Text} (h : t.drop i = c :: s) : t.drop (i + 1) = s :=
  drop_of_drop_append (w := [c]) h

theorem mem_ends_iff {s : Text} : s ∈ ends t ↔ s <:+ t := by
  induction t with
  | nil => simp [ends]
  | cons c t ih => rw [ends, List.mem_cons, ih, List.suffix_cons_iff]

theorem exists_end_iff {P : Text → Prop} : (∃ s ∈ ends t, P s) ↔ ∃ i, P (t.drop i) := by
  constructor
  · rintro ⟨s, hs, h⟩
    obtain ⟨before, rfl⟩ := mem_ends_iff.1 hs
    exact ⟨before.length, List.drop_left.symm ▸ h⟩
  · rintro ⟨i, h⟩
    exact ⟨t.drop i, mem_ends_iff.2 (List.drop_suffix i t), h⟩

theorem exists_end_prefix_iff {w : Text} : (∃ s ∈ ends t, w <+: s) ↔ w <:+: t := by
  rw [List.infix_iff_prefix_suffix]
  refine exists_congr fun s => ?_
  rw [mem_ends_iff, and_comm]

theorem after?_isSome_iff {lead : Text} : (after? lead t).isSome ↔ lead <+: t := by
  rw [Option.isSome_iff_exists]
  constructor
  · rintro ⟨rest, h⟩
    exact ⟨rest, (eq_append_of_after? h).symm⟩
  · rintro ⟨rest, rfl⟩
    exact ⟨rest, after?_append lead rest⟩

/-- `includes` looks for a part of a text. -/
theorem includes_iff {needle : Text} : includes needle t = true ↔ needle <:+: t := by
  simp only [includes, List.any_eq_true, after?_isSome_iff, exists_end_prefix_iff]

theorem prefix_trimLeft_iff {w : Text} (hc : isBlank c = false) : c :: w <+: trimLeft t ↔
    ∃ gap, (∀ b ∈ gap, isBlank b = true) ∧ gap ++ c :: w <+: t := by
  constructor
  · rintro ⟨rest, hrest⟩
    refine ⟨leading t, fun _ => isBlank_of_mem_leading, rest, ?_⟩
    rw [List.append_assoc, hrest]
    exact takeWhile_append_trimLeft t
  · rintro ⟨gap, hgap, rest, rfl⟩
    rw [List.append_assoc, trimLeft_append_of_blank hgap, List.cons_append,
      trimLeft_cons_of_not_blank hc]
    exact List.prefix_append (c :: w) rest

end MermaidPress.Text
