/-
Slices as decompositions. `slice?` gives one exactly where the text falls apart into what stands
before it, the slice and what stands behind it, with byte lengths that fit; so statements about
offsets become statements about appended texts.
-/
import MermaidPress.Text.Basic

namespace MermaidPress.Text

theorem byteLength_pos {t : Text} (h : t ≠ []) : 0 < byteLength t := by
  cases t with
  | nil => exact absurd rfl h
  | cons c t =>
    have hc := c.utf8Size_pos
    rw [byteLength_cons]
    omega

theorem byteLength_eq_zero {t : Text} : byteLength t = 0 ↔ t = [] := by
  constructor
  · intro h
    by_cases ht : t = []
    · exact ht
    · have := byteLength_pos ht
      omega
  · rintro rfl
    rfl

theorem append_eq_append_of_le {s t u v : Text} (h : s ++ t = u ++ v)
    (hle : byteLength s ≤ byteLength u) : ∃ m, u = s ++ m ∧ t = m ++ v := by
  rcases List.append_eq_append_iff.1 h with ⟨m, hs, ht⟩ | ⟨m, hs, ht⟩
  · exact ⟨m, hs, ht⟩
  · rw [hs, byteLength_append] at hle
    obtain rfl : m = [] := byteLength_eq_zero.1 (by omega)
    exact ⟨[], by simpa using hs.symm, by simpa using ht.symm⟩

/-- Two cuts of a text at the same offset are the same cut. -/
theorem append_inj_of_byteLength {s t u v : Text} (h : s ++ t = u ++ v)
    (hn : byteLength s = byteLength u) : s = u ∧ t = v := by
  obtain ⟨m, rfl, rfl⟩ := append_eq_append_of_le h (Nat.le_of_eq hn)
  rw [byteLength_append] at hn
  obtain rfl : m = [] := byteLength_eq_zero.1 (by omega)
  simp

/-- **`slice?` gives a middle part** whose place is told by the lengths of the parts. -/
theorem slice?_eq_some_iff {t middle : Text} {start stop : Nat} :
    slice? t start stop = some middle ↔ ∃ before after,
      t = before ++ middle ++ after ∧ byteLength before = start ∧
        start + byteLength middle = stop := by
  unfold slice?
  constructor
  · intro h
    split at h
    · obtain ⟨⟨front, after⟩, hf, h⟩ := Option.bind_eq_some_iff.1 h
      obtain ⟨⟨before, m⟩, hb, hm⟩ := Option.bind_eq_some_iff.1 h
      obtain rfl : m = middle := Option.some.inj hm
      obtain ⟨rfl, hstop⟩ := splitAt?_eq_some hf
      obtain ⟨rfl, hstart⟩ := splitAt?_eq_some hb
      rw [byteLength_append] at hstop
      exact ⟨before, after, rfl, hstart, by omega⟩
    · cases h
  · rintro ⟨before, after, rfl, rfl, rfl⟩
    rw [if_pos (Nat.le_add_right _ _), ← byteLength_append, splitAt?_byteLength]
    simp [splitAt?_byteLength]

theorem slice?_append (before middle after : Text) :
    slice? (before ++ middle ++ after) (byteLength before)
      (byteLength before + byteLength middle) = some middle :=
  slice?_eq_some_iff.2 ⟨before, after, rfl, rfl, rfl⟩

theorem slice?_append_right (before after : Text) :
    slice? (before ++ after) (byteLength before) (byteLength (before ++ after)) = some after :=
  slice?_eq_some_iff.2 ⟨before, [], by simp, rfl, by simp⟩

theorem le_of_slice? {t middle : Text} {start stop : Nat} (h : slice? t start stop = some middle) :
    start ≤ stop ∧ stop ≤ byteLength t := by
  obtain ⟨before, after, rfl, rfl, rfl⟩ := slice?_eq_some_iff.1 h
  simp only [byteLength_append]
  omega

/-- A slice within another is a part of it. -/
theorem exists_of_slice?_within {t outer inner : Text} {start stop first last : Nat}
    (h : slice? t start stop = some outer) (hinner : slice? t first last = some inner)
    (hle : start ≤ first) (hge : last ≤ stop) :
    ∃ before after, outer = before ++ inner ++ after ∧ start + byteLength before = first ∧
      last + byteLength after = stop := by
  obtain ⟨front, behind, rfl, rfl, rfl⟩ := slice?_eq_some_iff.1 h
  obtain ⟨front', behind', ht, rfl, rfl⟩ := slice?_eq_some_iff.1 hinner
  rw [List.append_assoc, List.append_assoc] at ht
  obtain ⟨before, rfl, hbefore⟩ := append_eq_append_of_le ht hle
  rw [← List.append_assoc] at hbefore
  obtain ⟨after, rfl, -⟩ := append_eq_append_of_le hbefore.symm (by
    rw [byteLength_append] at hge ⊢
    omega)
  refine ⟨before, after, rfl, (byteLength_append _ _).symm, ?_⟩
  simp only [byteLength_append]
  omega

theorem replaceSlice?_append (before middle after replacement : Text) :
    replaceSlice? (before ++ middle ++ after) (byteLength before)
      (byteLength before + byteLength middle) replacement = some (before ++ replacement ++ after) := by
  unfold replaceSlice?
  rw [if_pos (Nat.le_add_right _ _), ← byteLength_append, splitAt?_byteLength]
  simp [splitAt?_byteLength]

end MermaidPress.Text
