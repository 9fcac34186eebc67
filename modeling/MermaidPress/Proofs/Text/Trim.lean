/-
Trimming. A text is its `leading` blanks, what `trim` leaves and its `trailing` blanks, and the
trimmed part is the only one with blanks alone on both sides and none at its own edges.
-/
import MermaidPress.Text.Blank

namespace MermaidPress.Text

/-- The blanks that the text begins with. -/
def leading (t : Text) : Text := t.takeWhile isBlank

/-- The blanks that the text ends with, where it has any other character. -/
def trailing (t : Text) : Text := ((trimLeft t).reverse.takeWhile isBlank).reverse

/-- `content` is the text without the blanks on either side. -/
structure TrimsTo (t content : Text) : Prop where
  parts : ∃ lead trail, t = lead ++ content ++ trail ∧
    (∀ c ∈ lead, isBlank c = true) ∧ ∀ c ∈ trail, isBlank c = true
  head : ∀ c, content.head? = some c → isBlank c = false
  last : ∀ c, content.getLast? = some c → isBlank c = false

theorem notMem_of_blank {t : Text} (h : ∀ c ∈ t, isBlank c = true) {c : Char}
    (hc : isBlank c = false) : c ∉ t := fun hmem => by
  rw [h c hmem] at hc
  cases hc

theorem isBlank_of_mem_leading {t : Text} {c : Char} (h : c ∈ leading t) : isBlank c = true :=
  List.all_eq_true.1 List.all_takeWhile c h

theorem isBlank_of_mem_trailing {t : Text} {c : Char} (h : c ∈ trailing t) : isBlank c = true :=
  List.all_eq_true.1 List.all_takeWhile c (List.mem_reverse.1 h)

theorem isBlank_of_head?_trimLeft {t : Text} {c : Char} (h : (trimLeft t).head? = some c) :
    isBlank c = false := by
  have := List.head?_dropWhile_not isBlank t
  rw [← trimLeft, h] at this
  simpa using this

theorem trim_append_trailing (t : Text) : trim t ++ trailing t = trimLeft t := by
  rw [trim, trimRight, trailing, ← List.reverse_append, List.takeWhile_append_dropWhile,
    List.reverse_reverse]

/-- What `trim` loses is `leading` and `trailing`. -/
theorem leading_append_trim_append_trailing (t : Text) : leading t ++ trim t ++ trailing t = t := by
  rw [List.append_assoc, trim_append_trailing]
  exact takeWhile_append_trimLeft t

theorem trimsTo_trim (t : Text) : TrimsTo t (trim t) where
  parts := ⟨leading t, trailing t, (leading_append_trim_append_trailing t).symm,
    fun _ => isBlank_of_mem_leading, fun _ => isBlank_of_mem_trailing⟩
  head := fun c h => by
    have hhead : (trimLeft t).head? = some c := by
      rw [← trim_append_trailing, List.head?_append, h]
      rfl
    exact isBlank_of_head?_trimLeft hhead
  last := fun c h => by
    rw [trim, trimRight, List.getLast?_reverse] at h
    exact isBlank_of_head?_trimLeft h

theorem trimLeft_cons_of_blank {c : Char} (h : isBlank c = true) (t : Text) :
    trimLeft (c :: t) = trimLeft t := List.dropWhile_cons_of_pos h

theorem trimLeft_cons_of_not_blank {c : Char} (h : isBlank c = false) (t : Text) :
    trimLeft (c :: t) = c :: t := List.dropWhile_cons_of_neg (by simp [h])

theorem trimLeft_append_of_blank {lead t : Text} (h : ∀ c ∈ lead, isBlank c = true) :
    trimLeft (lead ++ t) = trimLeft t := List.dropWhile_append_of_pos h

theorem trimLeft_eq_self {t : Text} (h : ∀ c, t.head? = some c → isBlank c = false) :
    trimLeft t = t := by
  cases t with
  | nil => rfl
  | cons c t => exact trimLeft_cons_of_not_blank (h c rfl) t

theorem trimLeft_eq_self_iff {t : Text} :
    trimLeft t = t ↔ ∀ c, t.head? = some c → isBlank c = false :=
  ⟨fun h _ hc => isBlank_of_head?_trimLeft (h.symm ▸ hc), trimLeft_eq_self⟩

theorem trimLeft_trimLeft (t : Text) : trimLeft (trimLeft t) = trimLeft t :=
  trimLeft_eq_self fun _ => isBlank_of_head?_trimLeft

/-- `TrimsTo` holds of `trim` alone. -/
theorem TrimsTo.eq_trim {t content : Text} (h : TrimsTo t content) : content = trim t := by
  obtain ⟨lead, trail, rfl, hlead, htrail⟩ := h.parts
  rw [trim, List.append_assoc, trimLeft_append_of_blank hlead]
  cases hc : content with
  | nil =>
    rw [List.nil_append, ← List.append_nil trail, trimLeft_append_of_blank htrail]
    rfl
  | cons c rest =>
    rw [← hc, trimLeft_eq_self fun d hd => h.head d (by simpa [hc] using hd)]
    have hlast := trimLeft_eq_self (t := content.reverse) fun d hd =>
      h.last d (by rwa [List.head?_reverse] at hd)
    have : trimLeft (trail.reverse ++ content.reverse) = trimLeft content.reverse :=
      trimLeft_append_of_blank fun d hd => htrail d (List.mem_reverse.1 hd)
    unfold trimLeft at this hlast
    rw [trimRight, List.reverse_append, this, hlast, List.reverse_reverse]

theorem trim_eq_self {t : Text} (hhead : ∀ c, t.head? = some c → isBlank c = false)
    (hlast : ∀ c, t.getLast? = some c → isBlank c = false) : trim t = t :=
  (TrimsTo.eq_trim ⟨⟨[], [], by simp, by simp, by simp⟩, hhead, hlast⟩).symm

theorem trim_trim (t : Text) : trim (trim t) = trim t :=
  trim_eq_self (trimsTo_trim t).head (trimsTo_trim t).last

theorem head_of_trim_eq_self {t : Text} (h : trim t = t) :
    ∀ c, t.head? = some c → isBlank c = false := fun c hc =>
  (trimsTo_trim t).head c (by rwa [h])

theorem last_of_trim_eq_self {t : Text} (h : trim t = t) :
    ∀ c, t.getLast? = some c → isBlank c = false := fun c hc =>
  (trimsTo_trim t).last c (by rwa [h])

theorem eq_nil_of_blank {t : Text} (h : ∀ c ∈ t, isBlank c = true)
    (hlast : ∀ c, t.getLast? = some c → isBlank c = false) : t = [] := by
  cases hc : t.getLast? with
  | none => exact List.getLast?_eq_none_iff.1 hc
  | some c => exact absurd (List.mem_of_getLast? hc) (notMem_of_blank h (hlast c hc))

theorem trailing_eq_nil {t : Text} (h : ∀ c, t.getLast? = some c → isBlank c = false) :
    trailing t = [] :=
  eq_nil_of_blank (fun _ => isBlank_of_mem_trailing) fun c hc => h c (by
    rw [← leading_append_trim_append_trailing t, List.getLast?_append, hc]
    rfl)

theorem trim_eq_trimLeft {t : Text} (h : ∀ c, t.getLast? = some c → isBlank c = false) :
    trim t = trimLeft t := by
  rw [← trim_append_trailing, trailing_eq_nil h, List.append_nil]

theorem trim_append_of_blank {lead trail : Text} (hlead : ∀ c ∈ lead, isBlank c = true)
    (htrail : ∀ c ∈ trail, isBlank c = true) (t : Text) : trim (lead ++ t ++ trail) = trim t := by
  refine (TrimsTo.eq_trim ⟨⟨lead ++ leading t, trailing t ++ trail, ?_, ?_, ?_⟩,
    (trimsTo_trim t).head, (trimsTo_trim t).last⟩).symm
  · calc
      lead ++ t ++ trail = lead ++ (leading t ++ trim t ++ trailing t) ++ trail := by
        rw [leading_append_trim_append_trailing]
      _ = lead ++ leading t ++ trim t ++ (trailing t ++ trail) := by simp
  · intro c hc
    rcases List.mem_append.1 hc with hc | hc
    · exact hlead c hc
    · exact isBlank_of_mem_leading hc
  · intro c hc
    rcases List.mem_append.1 hc with hc | hc
    · exact isBlank_of_mem_trailing hc
    · exact htrail c hc

/-! ## The end of a text -/

/-- The blanks that the text ends with. -/
def endBlanks (t : Text) : Text := (t.reverse.takeWhile isBlank).reverse

theorem trimRight_append_endBlanks (t : Text) : trimRight t ++ endBlanks t = t := by
  rw [trimRight, endBlanks, ← List.reverse_append, List.takeWhile_append_dropWhile,
    List.reverse_reverse]

theorem isBlank_of_mem_endBlanks {t : Text} {c : Char} (h : c ∈ endBlanks t) : isBlank c = true :=
  List.all_eq_true.1 List.all_takeWhile c (List.mem_reverse.1 h)

variable {s t : Text}

theorem endBlanks_eq_self (h : trimRight t = []) : endBlanks t = t := by
  have hparts := trimRight_append_endBlanks t
  rwa [h, List.nil_append] at hparts

theorem isBlank_of_trimRight_eq_nil (h : trimRight t = []) : ∀ c ∈ t, isBlank c = true := by
  intro c hc
  rw [← endBlanks_eq_self h] at hc
  exact isBlank_of_mem_endBlanks hc

theorem trimRight_append_of_blank (h : ∀ c ∈ t, isBlank c = true) :
    trimRight (s ++ t) = trimRight s := by
  rw [trimRight, List.reverse_append,
    List.dropWhile_append_of_pos fun c hc => h c (List.mem_reverse.1 hc), trimRight]

theorem endBlanks_append_of_blank (h : ∀ c ∈ t, isBlank c = true) :
    endBlanks (s ++ t) = endBlanks s ++ t := by
  rw [endBlanks, List.reverse_append,
    List.takeWhile_append_of_pos fun c hc => h c (List.mem_reverse.1 hc), List.reverse_append,
    List.reverse_reverse, endBlanks]

theorem trimRight_append_of_ne_nil (h : trimRight t ≠ []) :
    trimRight (s ++ t) = s ++ trimRight t := by
  unfold trimRight at h ⊢
  rw [List.reverse_append, List.dropWhile_append, if_neg (by simpa using h), List.reverse_append,
    List.reverse_reverse]

theorem endBlanks_append_of_ne_nil (h : trimRight t ≠ []) : endBlanks (s ++ t) = endBlanks t := by
  have hparts := trimRight_append_endBlanks (s ++ t)
  rw [trimRight_append_of_ne_nil h, List.append_assoc] at hparts
  have hbehind : trimRight t ++ endBlanks (s ++ t) = t := List.append_cancel_left hparts
  exact List.append_cancel_left (hbehind.trans (trimRight_append_endBlanks t).symm)

end MermaidPress.Text
