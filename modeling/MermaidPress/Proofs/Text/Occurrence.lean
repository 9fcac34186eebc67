/-
Where a text occurs in another. `cut?` finds the first occurrence: the part before it, with
the needle behind, holds the needle at its end only.
-/
import MermaidPress.Proofs.Text.Slice

namespace MermaidPress.Text

/-- `needle` is at the end of `before ++ needle` and nowhere earlier in it. -/
def EndsFirst (needle before : Text) : Prop :=
  ∀ a b, before ++ needle = a ++ needle ++ b → b = []

theorem endsFirst_nil (needle : Text) : EndsFirst needle [] := fun a b h => by
  have := congrArg List.length h
  simp only [List.nil_append, List.length_append] at this
  exact List.eq_nil_of_length_eq_zero (by omega)

theorem EndsFirst.tail {needle before : Text} {c : Char} (h : EndsFirst needle (c :: before)) :
    EndsFirst needle before := fun a b hab => h (c :: a) b (by simp [hab])

theorem EndsFirst.after?_eq_none {needle before : Text} {c : Char}
    (h : EndsFirst needle (c :: before)) (rest : Text) :
    after? needle (c :: before ++ needle ++ rest) = none := by
  refine Option.eq_none_iff_forall_ne_some.2 fun r hr => ?_
  have hr := eq_append_of_after? hr
  rcases List.append_eq_append_iff.1 hr with ⟨m, hm, -⟩ | ⟨m, hm, -⟩
  · have := congrArg List.length hm
    simp at this
    omega
  · obtain rfl := h [] m (by simpa using hm)
    have := congrArg List.length hm
    simp at this
    omega

/-- Any occurrence is at the end of `before` or behind it. -/
theorem EndsFirst.prefix_of_append {needle before rest a b : Text} (h : EndsFirst needle before)
    (hab : before ++ needle ++ rest = a ++ needle ++ b) : before <+: a := by
  rw [List.append_assoc, List.append_assoc] at hab
  rcases List.append_eq_append_iff.1 hab with ⟨m, ha, -⟩ | ⟨m, rfl, hm⟩
  · exact ⟨m, ha.symm⟩
  · obtain ⟨n, hn⟩ : needle <+: m ++ needle :=
      List.prefix_of_prefix_length_le ⟨b, rfl⟩ ⟨rest, by rw [List.append_assoc, hm]⟩ (by simp)
    obtain rfl := h a n (by rw [List.append_assoc, List.append_assoc, hn])
    obtain rfl : m = [] := by simpa using hn
    simp

theorem cut?_append {needle before : Text} (h : EndsFirst needle before) (rest : Text) :
    cut? needle (before ++ needle ++ rest) = some (before, rest) := by
  induction before with
  | nil =>
    cases hn : needle ++ rest with
    | nil =>
      obtain ⟨rfl, rfl⟩ := List.append_eq_nil_iff.1 hn
      rfl
    | cons c t =>
      rw [List.nil_append, hn, cut?, ← hn, after?_append]
  | cons c before ih =>
    have hnone := h.after?_eq_none rest
    rw [List.cons_append, List.cons_append] at hnone ⊢
    rw [cut?, hnone, ih h.tail]
    rfl

theorem endsFirst_of_cut? {needle t before rest : Text} (h : cut? needle t = some (before, rest)) :
    EndsFirst needle before := by
  induction t generalizing before with
  | nil =>
    obtain ⟨r, -, heq⟩ := Option.map_eq_some_iff.1 h
    obtain ⟨rfl, -⟩ := Prod.mk.inj heq
    exact endsFirst_nil needle
  | cons c t ih =>
    rw [cut?] at h
    split at h
    · obtain ⟨rfl, -⟩ := Prod.mk.inj (Option.some.inj h)
      exact endsFirst_nil needle
    · rename_i hnone
      obtain ⟨⟨b, r⟩, hb, heq⟩ := Option.map_eq_some_iff.1 h
      obtain ⟨rfl, rfl⟩ := Prod.mk.inj heq
      rintro (_ | ⟨d, x⟩) y hxy
      · rw [eq_append_of_cut? hb] at hnone
        have : after? needle (c :: (b ++ needle ++ r)) = some (y ++ r) := by
          rw [← after?_append needle (y ++ r), ← List.append_assoc, ← List.nil_append needle, ← hxy]
          simp
        rw [this] at hnone
        cases hnone
      · rw [List.cons_append, List.cons_append, List.cons_append] at hxy
        exact ih hb x y (List.cons.inj hxy).2

/-- `cut?` finds an occurrence where there is one. -/
theorem cut?_eq_none_iff {needle t : Text} : cut? needle t = none ↔ ¬ needle <:+: t := by
  constructor
  · rintro h ⟨a, b, rfl⟩
    induction a with
    | nil =>
      rw [cut?_append (endsFirst_nil needle)] at h
      cases h
    | cons c a ih =>
      rw [List.cons_append, List.cons_append, cut?] at h
      split at h
      · cases h
      · exact ih (Option.map_eq_none_iff.1 h)
  · refine fun h => Option.eq_none_iff_forall_ne_some.2 fun found hcut => ?_
    exact h ⟨found.1, found.2, (eq_append_of_cut? hcut).symm⟩

theorem upTo?_append {c : Char} {before : Text} (h : c ∉ before) (rest : Text) :
    upTo? c (before ++ c :: rest) = some (before, rest) := by
  have hbefore : ∀ d ∈ before, (d != c) = true := fun d hd => by
    simpa using fun hdc : d = c => h (hdc ▸ hd)
  unfold upTo?
  rw [List.dropWhile_append_of_pos hbefore, List.takeWhile_append_of_pos hbefore]
  simp

/-! ## Around an occurrence -/

/-- No occurrence begins among characters other than its first. -/
theorem infix_append_left_iff {c : Char} (needle : Text) {lead t : Text} (h : c ∉ lead) :
    c :: needle <:+: lead ++ t ↔ c :: needle <:+: t := by
  constructor
  · intro hi
    induction lead with
    | nil => exact hi
    | cons d lead ih =>
      rcases List.infix_cons_iff.1 hi with hstarts | hi
      · obtain ⟨rfl, -⟩ := List.cons_prefix_cons.1 hstarts
        exact absurd List.mem_cons_self h
      · exact ih (fun hc => h (List.mem_cons_of_mem d hc)) hi
  · exact fun hi => hi.trans (List.suffix_append lead t).isInfix

theorem infix_append_right_iff {c : Char} (needle : Text) {trail t : Text} (h : c ∉ trail) :
    needle ++ [c] <:+: t ++ trail ↔ needle ++ [c] <:+: t := by
  rw [← List.reverse_infix, ← @List.reverse_infix _ (needle ++ [c]) t, List.reverse_append,
    List.reverse_append, List.reverse_singleton, List.singleton_append]
  exact infix_append_left_iff _ fun hc => h (List.mem_reverse.1 hc)

theorem infix_append_cons_iff {c : Char} {needle before behind : Text} (h : c ∉ needle) :
    needle <:+: before ++ c :: behind ↔ needle <:+: before ∨ needle <:+: behind := by
  constructor
  · intro hi
    rcases List.infix_append_iff.1 hi with hbefore | hbehind | ⟨front, rest, rfl, hfront, hrest⟩
    · exact .inl hbefore
    · rcases List.infix_cons_iff.1 hbehind with hstarts | hbehind
      · rcases List.prefix_cons_iff.1 hstarts with rfl | ⟨rest, rfl, -⟩
        · exact .inl List.nil_infix
        · exact absurd List.mem_cons_self h
      · exact .inr hbehind
    · -- what reaches behind the first part begins with the character
      rcases List.prefix_cons_iff.1 hrest with rfl | ⟨rest, rfl, -⟩
      · exact .inl ((List.append_nil front).symm ▸ hfront.isInfix)
      · exact absurd (List.mem_append_right front List.mem_cons_self) h
  · rintro (hbefore | hbehind)
    · exact hbefore.trans (List.prefix_append before _).isInfix
    · exact hbehind.trans (List.suffix_append_of_suffix (List.suffix_cons c behind)).isInfix

theorem infix_cons_iff_of_notMem {c : Char} {needle t : Text} (h : c ∉ needle) :
    needle <:+: c :: t ↔ needle <:+: t := by
  rw [← List.nil_append (c :: t), infix_append_cons_iff h]
  exact or_iff_right_of_imp fun hnil => List.infix_nil.1 hnil ▸ List.nil_infix

theorem infix_concat_iff_of_notMem {c : Char} {needle t : Text} (h : c ∉ needle) :
    needle <:+: t ++ [c] ↔ needle <:+: t := by
  rw [infix_append_cons_iff h]
  exact or_iff_left_of_imp fun hnil => List.infix_nil.1 hnil ▸ List.nil_infix

/-- Between two characters that it does not have, an occurrence is whole or not at all. -/
theorem infix_between_iff {c d : Char} {needle before t behind : Text} (hc : c ∉ needle)
    (hd : d ∉ needle) (hbefore : [c] <:+ before) (hbehind : [d] <+: behind) :
    needle <:+: before ++ t ++ behind ↔
      needle <:+: before ∨ needle <:+: t ∨ needle <:+: behind := by
  obtain ⟨start, rfl⟩ := hbefore
  obtain ⟨rest, rfl⟩ := hbehind
  have hwhole : start ++ [c] ++ t ++ ([d] ++ rest) = start ++ c :: (t ++ d :: rest) := by simp
  rw [hwhole, infix_append_cons_iff hc, infix_append_cons_iff hd, infix_concat_iff_of_notMem hc,
    List.singleton_append, infix_cons_iff_of_notMem hd]

end MermaidPress.Text
