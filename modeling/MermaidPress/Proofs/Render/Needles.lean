/-
What occurs on a page. A page is more than the diagram on it: it has a frame that is the same for
every diagram, it has the address of the script, and both this and the diagram are escaped. So a text
may occur on a page whose diagram does not have it, and the other way round.

For two kinds of texts it is said exactly where they occur. A word is not changed by escaping, and it
is in the diagram, in the address, in the frame, or in the name of an entity. A text with a bracket or
a quote is never in what is escaped, so it is in the frame or around the address.
-/
import MermaidPress.Proofs.Render.Markup

namespace MermaidPress.Page

variable {c : Char} {needle t source script : Text}

/-! ## In an escaped text -/

/-- A text in one line that `escape` leaves as it is, without the character that entities end
with. -/
structure IsWord (t : Text) : Prop where
  plain : ∀ c ∈ t, escapeChar c = [c]
  entity : ';' ∉ t
  line : '\n' ∉ t

theorem isWord_iff :
    IsWord t ↔ (t.all fun c => escapeChar c == [c]) = true ∧ ';' ∉ t ∧ '\n' ∉ t := by
  simp only [List.all_eq_true, beq_iff_eq]
  exact ⟨fun h => ⟨h.plain, h.entity, h.line⟩, fun ⟨plain, entity, line⟩ => ⟨plain, entity, line⟩⟩

instance (t : Text) : Decidable (IsWord t) := decidable_of_iff _ isWord_iff.symm

/-- The text occurs in the entity that `escapeChar` makes of a character of the other text. -/
def InEntity (needle t : Text) : Prop := ∃ c ∈ t, escapeChar c ≠ [c] ∧ needle <:+: escapeChar c

theorem exists_entity_of_ne (h : escapeChar c ≠ [c]) :
    ∃ name, escapeChar c = '&' :: name ++ [';'] := by
  have hall : ∀ e ∈ entities, e.1 = '&' :: e.1.tail.dropLast ++ [';'] := by decide
  rcases escapeChar_cases c with hmem | ⟨-, hplain⟩
  · exact ⟨_, hall _ hmem⟩
  · exact absurd hplain h

theorem eq_nil_of_prefix_entity {name : Text} (hplain : ∀ c ∈ needle, escapeChar c = [c])
    (h : needle <+: '&' :: name) : needle = [] := by
  rcases List.prefix_cons_iff.1 h with hnil | ⟨rest, rfl, -⟩
  · exact hnil
  · exact absurd (hplain '&' List.mem_cons_self) (by decide)

theorem prefix_escape_iff (hplain : ∀ c ∈ needle, escapeChar c = [c]) :
    needle <+: escape t ↔ needle <+: t := by
  induction needle generalizing t with
  | nil => exact iff_of_true List.nil_prefix List.nil_prefix
  | cons d needle ih =>
    obtain ⟨hd, hneedle⟩ := List.forall_mem_cons.1 hplain
    cases t with
    | nil => exact Iff.rfl
    | cons c t =>
      rw [escape_cons]
      by_cases hc : escapeChar c = [c]
      · rw [hc, List.singleton_append, List.cons_prefix_cons, List.cons_prefix_cons, ih hneedle]
      · obtain ⟨name, hname⟩ := exists_entity_of_ne hc
        refine iff_of_false (fun h => ?_) fun h => ?_
        · rw [hname, List.append_assoc, List.cons_append] at h
          exact List.cons_ne_nil d needle (eq_nil_of_prefix_entity hplain h)
        · obtain ⟨rfl, -⟩ := List.cons_prefix_cons.1 h
          exact hc hd

/-- A word does not reach over the end of an entity. -/
theorem infix_entity_append_iff (h : IsWord needle) (hc : escapeChar c ≠ [c]) (t : Text) :
    needle <:+: escapeChar c ++ t ↔ needle <:+: escapeChar c ∨ needle <:+: t := by
  obtain ⟨name, hname⟩ := exists_entity_of_ne hc
  rw [hname, List.append_assoc, List.singleton_append, Text.infix_append_cons_iff h.entity,
    Text.infix_concat_iff_of_notMem h.entity]

/-- A word in an escaped text is in the text itself or in an entity of it. -/
theorem infix_escape_iff (h : IsWord needle) :
    needle <:+: escape t ↔ needle <:+: t ∨ InEntity needle t := by
  induction t with
  | nil => simp [escape, InEntity]
  | cons c t ih =>
    have hsplit : InEntity needle (c :: t) ↔
        (escapeChar c ≠ [c] ∧ needle <:+: escapeChar c) ∨ InEntity needle t := by
      simp only [InEntity, List.mem_cons, exists_eq_or_imp]
    rw [hsplit, List.infix_cons_iff, escape_cons]
    by_cases hc : escapeChar c = [c]
    · have hstarts : needle <+: c :: escape t ↔ needle <+: c :: t := by
        rw [← prefix_escape_iff h.plain (t := c :: t), escape_cons, hc, List.singleton_append]
      rw [hc, List.singleton_append, List.infix_cons_iff, hstarts, ih]
      simp [or_assoc]
    · -- a word that begins with the character is empty, and so it is in the entity
      have hstarts : needle <+: c :: t → needle <:+: escapeChar c := fun hstarts => by
        rcases List.prefix_cons_iff.1 hstarts with rfl | ⟨rest, rfl, -⟩
        · exact List.nil_infix
        · exact absurd (h.plain c List.mem_cons_self) hc
      rw [infix_entity_append_iff h hc, ih]
      constructor
      · rintro (hin | hin | hin)
        · exact .inr (.inl ⟨hc, hin⟩)
        · exact .inl (.inr hin)
        · exact .inr (.inr hin)
      · rintro ((hin | hin) | ⟨-, hin⟩ | hin)
        · exact .inl (hstarts hin)
        · exact .inr (.inl hin)
        · exact .inl hin
        · exact .inr (.inr hin)

/-- A bracket or a quote is in no escaped text, so neither is a text that has one. -/
theorem not_infix_escape (hmem : c ∈ needle) (hc : c = '<' ∨ c = '>' ∨ c = '"') :
    ¬ needle <:+: escape t := fun h => by
  have hinert := isInert_escape t
  have hin := h.subset hmem
  rcases hc with rfl | rfl | rfl
  · exact hinert.less hin
  · exact hinert.greater hin
  · exact hinert.quote hin

/-! ## On a page -/

/-- The text occurs in what is the same on every `shell`. -/
def InFrame (needle : Text) : Prop := needle <:+: head ∨ needle <:+: middle ∨ needle <:+: foot

theorem inFrame_mermaid : InFrame "mermaid".toList := by
  have hcontainer : "mermaid".toList <:+: "<div id=\"diagram\" class=\"mermaid\">\n".toList :=
    ⟨"<div id=\"diagram\" class=\"".toList, "\">\n".toList, by decide⟩
  exact .inr (.inl (hcontainer.trans container_suffix_middle.isInfix))

/-- A text in one line is in the diagram, around the address or behind the diagram: in a `shell` the
diagram has a line break on either side. -/
theorem infix_shell_iff_of_line (h : '\n' ∉ needle) : needle <:+: shell source script ↔
    needle <:+: head ++ escape script ++ middle ∨ needle <:+: escape source ∨
      needle <:+: foot := by
  have hbreak : ['\n'] <:+ "<div id=\"diagram\" class=\"mermaid\">\n".toList := by decide
  have hmiddle := hbreak.trans container_suffix_middle
  exact Text.infix_between_iff h h (hmiddle.trans (List.suffix_append _ _)) ⟨foot.tail, rfl⟩

/-- A word on a `shell` is in the diagram, in the address, `InFrame` or `InEntity`. -/
theorem infix_shell_iff_of_word (h : IsWord needle) : needle <:+: shell source script ↔
    needle <:+: source ∨ needle <:+: script ∨ InFrame needle ∨
      InEntity needle source ∨ InEntity needle script := by
  have hquote : '"' ∉ needle := fun hmem => absurd (h.plain '"' hmem) (by decide)
  have hhead : ['"'] <:+ head := by
    have hbreak : ['"'] <:+ "<script src=\"".toList := by decide
    exact hbreak.trans attribute_suffix_head
  have haddress : needle <:+: head ++ escape script ++ middle ↔
      needle <:+: head ∨ needle <:+: escape script ∨ needle <:+: middle :=
    Text.infix_between_iff hquote hquote hhead ⟨middle.tail, rfl⟩
  rw [infix_shell_iff_of_line h.line, haddress, infix_escape_iff h, infix_escape_iff h, InFrame]
  simp only [or_assoc, or_comm, or_left_comm]

/-- A text with a bracket or a quote is not seen in the diagram. -/
theorem infix_shell_iff_of_mark (h : '\n' ∉ needle) (hmem : c ∈ needle)
    (hc : c = '<' ∨ c = '>' ∨ c = '"') : needle <:+: shell source script ↔
      needle <:+: head ++ escape script ++ middle ∨ needle <:+: foot := by
  rw [infix_shell_iff_of_line h]
  simp only [not_infix_escape hmem hc, false_or]

end MermaidPress.Page
