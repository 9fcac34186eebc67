/-
`tidy` is spacing as a whole: the arrows and then the quoted names. A tidy text stays as it is, and
so does what is left of it when its edges are trimmed, up to the blanks that the next spacing puts
there again. It puts them there where an arrow stands at an edge, and nowhere else.
-/
import MermaidPress.Proofs.Diagram.Spacing

namespace MermaidPress.Diagram

open Text

/-- The text after both passes of spacing: `spaced`, and then `quoted`. -/
def tidy (t : Text) : Text := quoted (spaced t)

/-! ## Its work stays done -/

theorem spaced_tidy (t : Text) : spaced (tidy t) = tidy t := (tightens_quoted _).spaced_eq

theorem quoted_tidy (t : Text) : quoted (tidy t) = tidy t := quoted_quoted _

/-- `tidy` twice is `tidy` once. -/
theorem tidy_tidy (t : Text) : tidy (tidy t) = tidy t := by
  rw [tidy, spaced_tidy, quoted_tidy]

/-! ## The edges -/

theorem Tightens.eq_of_quote_not_mem {u v : Text} (h : Tightens u v) (hu : '"' ∉ u) : v = u := by
  induction h with
  | nil => rfl
  | keep c h ih => rw [ih fun hmem => hu (List.mem_cons_of_mem c hmem)]
  | gap => exact absurd (by simp) hu

theorem Tightens.suffix_of_append {u t w : Text} (ht : '"' ∉ t) (h : Tightens (u ++ t) w) :
    t <:+ w := by
  generalize hut : u ++ t = s at h
  induction h generalizing u with
  | nil =>
    obtain ⟨-, rfl⟩ := List.append_eq_nil_iff.1 hut
    exact List.nil_suffix
  | @keep s v c h ih =>
    cases u with
    | nil =>
      obtain rfl : t = c :: s := hut
      exact (h.keep c).eq_of_quote_not_mem ht ▸ List.suffix_rfl
    | cons d u => exact (ih (List.cons.inj hut).2).trans (List.suffix_cons c v)
  | @gap blanks s v hne hblank h ih =>
    have hsuffix : v <:+ 'h' :: ' ' :: '"' :: v := List.suffix_append ['h', ' ', '"'] v
    have hsplit : u ++ t = ('h' :: blanks ++ ['"']) ++ s := by simp [hut]
    rcases List.append_eq_append_iff.1 hsplit with ⟨m, hm, htm⟩ | ⟨m, rfl, hm⟩
    · rcases List.eq_nil_or_concat m with rfl | ⟨m, c, rfl⟩
      · exact (ih (u := []) htm).trans hsuffix
      · obtain rfl : '"' = c := by
          have hlast := congrArg List.getLast? hm
          rwa [List.concat_eq_append, ← List.append_assoc, List.getLast?_concat,
            List.getLast?_concat, Option.some.injEq] at hlast
        exact absurd (by simp [htm]) ht
    · exact (ih hm.symm).trans hsuffix

variable {t : Text}

theorem arrow_suffix_trim {front : Text} (h : front ++ spacedArrow = t) : arrow <:+ trim t := by
  have hparts : [] ++ (front ++ ' ' :: arrow) ++ [' '] = t := by
    rw [← h]
    simp [spacedArrow, arrow]
  have hspace : ∀ c ∈ [' '], isBlank c = true := List.forall_mem_singleton.2 (by decide)
  have hlast : ∀ c, (front ++ ' ' :: arrow).getLast? = some c → isBlank c = false := fun c hc => by
    rw [getLast?_append_of_some (c := '>') rfl] at hc
    obtain rfl := Option.some.inj hc
    decide
  rw [← hparts, trim_append_of_blank (fun _ hc => by cases hc) hspace, trim_eq_trimLeft hlast]
  exact arrow_suffix_trimLeft ((List.suffix_cons ' ' arrow).trans (List.suffix_append front _))

/-- At the front of a trimmed text `tidy` puts a blank before an arrow, and else nothing. -/
theorem tidy_front (h : trim t = t) :
    ¬ arrow <+: t ∧ (tidy t).head? = t.head? ∨ arrow <+: t ∧ spacedArrow <+: tidy t := by
  have htight : Tightens (spaced t) (tidy t) := tightens_quoted _
  rcases spaced_front (head_of_trim_eq_self h) with ⟨harrow, hsame⟩ | ⟨harrow, rest, hrest⟩
  · exact .inl ⟨harrow, htight.head?_eq.symm.trans hsame⟩
  · have hno : 'h' ∉ spacedArrow := by decide
    rw [← hrest] at htight
    obtain ⟨rest', hrest', -⟩ := htight.of_append_left hno
    exact .inr ⟨harrow, rest', hrest'.symm⟩

/-- At its end `tidy` puts a blank behind an arrow, and else nothing. -/
theorem tidy_end (h : trim t = t) :
    ¬ arrow <:+ t ∧ (tidy t).getLast? = t.getLast? ∨ arrow <:+ t ∧ spacedArrow <:+ tidy t := by
  have htight : Tightens (spaced t) (tidy t) := tightens_quoted _
  rcases spaced_end (last_of_trim_eq_self h) with ⟨harrow, hsame⟩ | ⟨harrow, front, hfront⟩
  · exact .inl ⟨harrow, htight.getLast?_eq.symm.trans hsame⟩
  · have hno : '"' ∉ spacedArrow := by decide
    rw [← hfront] at htight
    exact .inr ⟨harrow, htight.suffix_of_append hno⟩

/-- A `tidy` text comes back from what `trim` leaves of it. -/
theorem tidy_trim_tidy (h : trim t = t) : tidy (trim (tidy t)) = tidy t := by
  have hleft : spaced (trimLeft (tidy t)) = tidy t := by
    refine spaced_trimLeft_eq_self_iff.2 ⟨spaced_tidy t, ?_⟩
    rcases tidy_front h with ⟨-, hhead⟩ | ⟨-, rest, hrest⟩
    · exact .inr (trimLeft_eq_self fun c hc => head_of_trim_eq_self h c (hhead ▸ hc))
    · exact .inl ⟨' ' :: rest, by rw [← hrest, trimLeft_spacedArrow_append]⟩
  have hright : spaced (trim (tidy t)) = spaced (trimLeft (tidy t)) := by
    rw [← trim_append_trailing (tidy t)]
    rcases tidy_end h with ⟨-, hlast⟩ | ⟨-, front, hfront⟩
    · rw [trailing_eq_nil fun c hc => last_of_trim_eq_self h c (hlast ▸ hc), List.append_nil]
    · exact (spaced_append_of_blank (arrow_suffix_trim hfront) fun _ => isBlank_of_mem_trailing).symm
  rw [tidy, hright, hleft, quoted_tidy]

/-- A text that `tidy` and `trim` together leave as it is is tidy if and only if no arrow stands at
its edges. -/
theorem tidy_eq_self_iff (h : trim (tidy t) = t) :
    tidy t = t ↔ ¬ arrow <+: t ∧ ¬ arrow <:+ t := by
  have ht : trim t = t := by rw [← h, trim_trim]
  constructor
  · intro heq
    constructor
    · rcases tidy_front ht with ⟨harrow, -⟩ | ⟨-, rest, hrest⟩
      · exact harrow
      · cases head_of_trim_eq_self ht ' ' (by rw [← heq, ← hrest]; rfl)
    · rcases tidy_end ht with ⟨harrow, -⟩ | ⟨-, hend⟩
      · exact harrow
      · cases last_of_trim_eq_self ht ' ' (heq ▸ getLast?_of_suffix hend rfl)
  · rintro ⟨hfront, hend⟩
    obtain ⟨-, hhead⟩ := (tidy_front ht).resolve_right fun h => hfront h.1
    obtain ⟨-, hlast⟩ := (tidy_end ht).resolve_right fun h => hend h.1
    have htrim : trim (tidy t) = tidy t :=
      trim_eq_self (fun c hc => head_of_trim_eq_self ht c (hhead ▸ hc))
        fun c hc => last_of_trim_eq_self ht c (hlast ▸ hc)
    exact htrim.symm.trans h

/-! ## Ticks -/

theorem Tightens.infix_left {u v w : Text} {c : Char} (hh : 'h' ∉ c :: w) (hc : c ∉ ['h', ' ', '"'])
    (htight : Tightens u v) (h : c :: w <:+: v) : c :: w <:+: u := by
  induction htight with
  | nil => exact h
  | @keep u v d htight ih =>
    rcases List.infix_cons_iff.1 h with ⟨rest, hrest⟩ | h
    · obtain ⟨rest, hu, -⟩ := (hrest ▸ htight.keep d).of_append_right hh
      exact ⟨[], rest, hu.symm⟩
    · exact (ih h).trans (List.suffix_cons d u).isInfix
  | @gap blanks u v hne hblank htight ih =>
    have hu : u <:+ 'h' :: (blanks ++ '"' :: u) :=
      ⟨'h' :: (blanks ++ ['"']), by simp⟩
    exact (ih ((infix_append_left_iff w hc).1 h)).trans hu.isInfix

theorem infix_of_tidy {c : Char} {w : Text} (hspace : c ∉ spacedArrow) (hc : c ∉ ['h', ' ', '"'])
    (hh : 'h' ∉ c :: w) (hw : ∀ d ∈ c :: w, isBlank d = false) (h : c :: w <:+: tidy t) :
    c :: w <:+: t :=
  infix_of_spaced hspace hw ((tightens_quoted _).infix_left hh hc h)

end MermaidPress.Diagram
