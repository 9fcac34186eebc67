/-
What a page holds of a diagram and of the script's address. Both are escaped, character by
character, and the page has each of them between parts that are the same for every diagram. An
escaped text has none of the characters that could end the place it stands in, and every `&` in it
begins an entity; so the value of the attribute is over at the quote behind it, and the text of the
container at the tag that ends the container.

Entities are read in one pass from the left, and what an entity stands for is not read again.
`unescape_escape` says that this pass gives back the text, also where the text looked escaped
before. From it and from the two places where the escaped texts end, a page gives back both texts.
-/
import MermaidPress.Proofs.Text.Occurrence
import MermaidPress.Render.Page

namespace MermaidPress.Page

/-! ## Entities -/

/-- The entities of a page, each with the character that it stands for. -/
def entities : List (Text × Char) :=
  [("&amp;".toList, '&'), ("&lt;".toList, '<'), ("&gt;".toList, '>'), ("&quot;".toList, '"')]

/-- What the entity at the front of a text stands for, and the text behind it. -/
def entity? (t : Text) : Option (Char × Text) :=
  entities.findSome? fun (entity, c) => (Text.after? entity t).map fun rest => (c, rest)

variable {c : Char} {entity t rest : Text}

theorem exists_of_mem_entities (h : (entity, c) ∈ entities) :
    ∃ name, entity = '&' :: name ∧ '&' ∉ name := by
  have hall : ∀ e ∈ entities, e.1 = '&' :: e.1.tail ∧ '&' ∉ e.1.tail := by decide
  exact ⟨entity.tail, hall _ h⟩

theorem eq_append_of_entity? (h : entity? t = some (c, rest)) :
    ∃ entity, (entity, c) ∈ entities ∧ t = entity ++ rest := by
  obtain ⟨⟨entity, d⟩, hmem, hafter⟩ := List.exists_of_findSome?_eq_some h
  obtain ⟨behind, hbehind, heq⟩ := Option.map_eq_some_iff.1 hafter
  obtain ⟨rfl, rfl⟩ := Prod.mk.inj heq
  exact ⟨entity, hmem, Text.eq_append_of_after? hbehind⟩

theorem length_lt_of_entity? (h : entity? t = some (c, rest)) : rest.length < t.length := by
  obtain ⟨entity, hmem, rfl⟩ := eq_append_of_entity? h
  obtain ⟨name, rfl, -⟩ := exists_of_mem_entities hmem
  simp only [List.length_append, List.length_cons]
  omega

/-- A text with its `entities` read, in one pass from the left. -/
def unescape : Text → Text
  | [] => []
  | c :: t =>
    match _h : entity? (c :: t) with
    | some (d, rest) => d :: unescape rest
    | none => c :: unescape t
termination_by t => t.length
decreasing_by
  · exact length_lt_of_entity? _h
  · simp

/-- No entity is the front of another, so that each is read as itself. -/
theorem entity?_append (h : (entity, c) ∈ entities) (rest : Text) :
    entity? (entity ++ rest) = some (c, rest) := by
  simp only [entities, List.mem_cons, Prod.mk.injEq, List.not_mem_nil, or_false] at h
  rcases h with ⟨rfl, rfl⟩ | ⟨rfl, rfl⟩ | ⟨rfl, rfl⟩ | ⟨rfl, rfl⟩ <;> rfl

theorem entity?_eq_none (h : c ≠ '&') (t : Text) : entity? (c :: t) = none := by
  refine Option.eq_none_iff_forall_ne_some.2 fun found hfound => ?_
  obtain ⟨entity, hmem, heq⟩ := eq_append_of_entity? hfound
  obtain ⟨name, rfl, -⟩ := exists_of_mem_entities hmem
  exact h (List.cons.inj heq).1

/-! ## Escaped texts -/

theorem escapeChar_cases (c : Char) :
    (escapeChar c, c) ∈ entities ∨
      (c ≠ '&' ∧ c ≠ '<' ∧ c ≠ '>' ∧ c ≠ '"') ∧ escapeChar c = [c] := by
  unfold escapeChar
  split
  · exact .inl (by decide)
  · exact .inl (by decide)
  · exact .inl (by decide)
  · exact .inl (by decide)
  · rename_i hamp hless hgreater hquote
    exact .inr ⟨⟨hamp, hless, hgreater, hquote⟩, rfl⟩

theorem escape_cons (c : Char) (t : Text) : escape (c :: t) = escapeChar c ++ escape t := rfl

/-- `unescape` undoes `escape`. -/
theorem unescape_escape (t : Text) : unescape (escape t) = t := by
  induction t with
  | nil => rw [escape, List.flatMap_nil, unescape]
  | cons c t ih =>
    rw [escape_cons]
    rcases escapeChar_cases c with hmem | ⟨⟨hamp, -⟩, hplain⟩
    · have hread := entity?_append hmem (escape t)
      obtain ⟨name, hname, -⟩ := exists_of_mem_entities hmem
      rw [hname, List.cons_append] at hread ⊢
      rw [unescape, hread]
      dsimp only
      rw [ih]
    · rw [hplain, List.singleton_append, unescape, entity?_eq_none hamp]
      dsimp only
      rw [ih]

theorem escape_injective : Function.Injective escape :=
  Function.LeftInverse.injective unescape_escape

/-- A text that opens and ends nothing in a page: it has no bracket and no quote, and each `&` in it
begins an entity. -/
structure IsInert (t : Text) : Prop where
  less : '<' ∉ t
  greater : '>' ∉ t
  quote : '"' ∉ t
  entity : ∀ front behind, t = front ++ '&' :: behind → ∃ e ∈ entities, e.1 <+: '&' :: behind

theorem isInert_nil : IsInert [] where
  less := by simp
  greater := by simp
  quote := by simp
  entity front behind h := by simp at h

theorem IsInert.append {s t : Text} (hs : IsInert s) (ht : IsInert t) : IsInert (s ++ t) where
  less := by simp [hs.less, ht.less]
  greater := by simp [hs.greater, ht.greater]
  quote := by simp [hs.quote, ht.quote]
  entity front behind h := by
    rcases List.append_eq_append_iff.1 h with ⟨m, -, hm⟩ | ⟨m, hm, hbehind⟩
    · exact ht.entity m behind hm
    · cases m with
      | nil => exact ht.entity [] behind hbehind.symm
      | cons d m =>
        obtain ⟨rfl, rfl⟩ := List.cons.inj hbehind
        obtain ⟨e, he, hstarts⟩ := hs.entity front m hm
        exact ⟨e, he, hstarts.trans (List.prefix_append ('&' :: m) t)⟩

theorem isInert_of_mem_entities (h : (entity, c) ∈ entities) : IsInert entity := by
  have hall : ∀ e ∈ entities, '<' ∉ e.1 ∧ '>' ∉ e.1 ∧ '"' ∉ e.1 := by decide
  obtain ⟨less, greater, quote⟩ := hall _ h
  refine ⟨less, greater, quote, fun front behind heq => ?_⟩
  obtain ⟨name, rfl, hname⟩ := exists_of_mem_entities h
  cases front with
  | nil =>
    rw [List.nil_append] at heq
    exact ⟨_, h, heq ▸ List.prefix_refl _⟩
  | cons d front =>
    have hmem : '&' ∈ name := by
      rw [(List.cons.inj heq).2]
      simp
    exact absurd hmem hname

theorem isInert_escapeChar (c : Char) : IsInert (escapeChar c) := by
  rcases escapeChar_cases c with hmem | ⟨⟨hamp, hless, hgreater, hquote⟩, hplain⟩
  · exact isInert_of_mem_entities hmem
  · rw [hplain]
    refine ⟨by simpa using hless.symm, by simpa using hgreater.symm, by simpa using hquote.symm,
      fun front behind heq => ?_⟩
    have hmem : '&' ∈ [c] := by
      rw [heq]
      simp
    exact absurd (List.mem_singleton.1 hmem).symm hamp

/-- What `escape` makes of a text is inert. -/
theorem isInert_escape (t : Text) : IsInert (escape t) := by
  induction t with
  | nil => exact isInert_nil
  | cons c t ih => exact (isInert_escapeChar c).append ih

/-! ## The page -/

theorem attribute_suffix_head : "<script src=\"".toList <:+ head := by
  have hline : "<script src=\"".toList <:+ "    <script src=\"".toList := by decide
  exact hline.trans (List.suffix_append _ _)

theorem suffix_joinLines {lines : List String} {line : String} (h : lines.getLast? = some line) :
    line.toList ++ ['\n'] <:+ joinLines lines := by
  obtain ⟨earlier, rfl⟩ := List.getLast?_eq_some_iff.1 h
  unfold joinLines
  rw [List.flatMap_append, List.flatMap_singleton]
  exact List.suffix_append _ _

theorem container_suffix_middle :
    "<div id=\"diagram\" class=\"mermaid\">\n".toList <:+ middle := by
  have hline : "<div id=\"diagram\" class=\"mermaid\">\n".toList <:+
      "    <div id=\"diagram\" class=\"mermaid\">".toList ++ ['\n'] := by decide
  exact hline.trans (suffix_joinLines rfl)

/-- What stands between a diagram and the tag behind it. -/
def margin : Text := "\n    ".toList

/-- The page from the name of the tag on that ends the container. -/
def behindDiagram : Text := "/div>\n  </body>\n</html>\n".toList

/-- The attribute ends where the address does: at the quote behind it. -/
theorem upTo?_quote (script rest : Text) :
    Text.upTo? '"' (escape script ++ middle ++ rest) = some (escape script, middle.tail ++ rest) := by
  have hmiddle : middle = '"' :: middle.tail := rfl
  rw [List.append_assoc, hmiddle]
  exact Text.upTo?_append (isInert_escape script).quote _

/-- The text of the container ends behind the diagram, with the tag that ends the container. -/
theorem upTo?_less (source : Text) :
    Text.upTo? '<' (escape source ++ foot) = some (escape source ++ margin, behindDiagram) := by
  have hfoot : foot = margin ++ '<' :: behindDiagram := by decide
  have hless : '<' ∉ escape source ++ margin := by
    rw [List.mem_append, not_or]
    exact ⟨(isInert_escape source).less, by decide⟩
  rw [hfoot, ← List.append_assoc]
  exact Text.upTo?_append hless _

theorem eq_of_shell_eq {source source' script script' : Text}
    (h : shell source script = shell source' script') : source = source' ∧ script = script' := by
  unfold shell at h
  simp only [List.append_assoc, List.append_cancel_left_eq] at h
  have hscript := congrArg (Text.upTo? '"') h
  rw [← List.append_assoc, ← List.append_assoc (escape script'), upTo?_quote, upTo?_quote,
    Option.some.injEq, Prod.mk.injEq, List.append_cancel_left_eq] at hscript
  obtain ⟨hscript, hrest⟩ := hscript
  have hsource := congrArg (Text.upTo? '<') hrest
  rw [upTo?_less, upTo?_less, Option.some.injEq, Prod.mk.injEq,
    List.append_cancel_right_eq] at hsource
  exact ⟨escape_injective hsource.1, escape_injective hscript⟩

/-- **`shell` keeps the parts of a page apart.** The script's address stands in an attribute and the
diagram in a container, each escaped, between parts of the page that are always the same. Whatever
the two texts hold, they are inert: the attribute ends at the quote behind the address, and the next
tag behind the container's own is the one that ends it. Read with their entities, both are what they
were, and no two pairs of texts make the same page. -/
theorem shell_keeps_apart (source script : Text) :
    shell source script = head ++ escape script ++ middle ++ escape source ++ foot ∧
    ("<script src=\"".toList <:+ head ∧
      "<div id=\"diagram\" class=\"mermaid\">\n".toList <:+ middle) ∧
    (IsInert (escape script) ∧ IsInert (escape source)) ∧
    Text.upTo? '"' (escape script ++ middle ++ (escape source ++ foot)) =
      some (escape script, middle.tail ++ (escape source ++ foot)) ∧
    Text.upTo? '<' (escape source ++ foot) = some (escape source ++ margin, behindDiagram) ∧
    (unescape (escape script) = script ∧ unescape (escape source) = source) ∧
    ∀ source' script', shell source script = shell source' script' →
      source = source' ∧ script = script' := by
  refine ⟨rfl, ⟨attribute_suffix_head, container_suffix_middle⟩,
    ⟨isInert_escape script, isInert_escape source⟩, upTo?_quote script _,
    upTo?_less source, ⟨unescape_escape script, unescape_escape source⟩, ?_⟩
  intro source' script' h
  exact eq_of_shell_eq h

/-- A source that looks escaped is escaped all the same. -/
example : escape "a &lt; b".toList = "a &amp;lt; b".toList := by decide

end MermaidPress.Page
