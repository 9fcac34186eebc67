/-
Replacing parts of a text from left to right. At each position a rule may find a hit that begins
there; the hit is replaced and the scan goes on behind it, so hits never overlap and what
was put in is not looked at again. Where no hit begins, the character stays.

`alongLine` looks for the first position on the rest of a line at which a probe answers.
-/
import MermaidPress.Text.Basic

namespace MermaidPress.Text

/-- A hit at the start of the text `t`: what to put there, what comes behind it, and a note
about it. A hit is never empty. -/
structure Hit (α : Type) (t : Text) where
  replacement : Text
  rest : Text
  note : α
  shorter : rest.length < t.length

/-- The text with every hit replaced, and the notes of the hits from left to right. -/
def replaceHits {α : Type} (find : (t : Text) → Option (Hit α t)) (t : Text) : Text × List α :=
  match t with
  | [] => ([], [])
  | c :: rest =>
    match find (c :: rest) with
    | some hit =>
      let (out, notes) := replaceHits find hit.rest
      (hit.replacement ++ out, hit.note :: notes)
    | none =>
      let (out, notes) := replaceHits find rest
      (c :: out, notes)
termination_by t.length
decreasing_by
  · exact hit.shorter
  · simp

/-- The first position, from here to the end of the line, at which `probe` answers: what
was skipped before it and the answer. The probe sees the character before the position and
the text from the position on. -/
def alongLine {β : Type} (probe : Char → Text → Option β) (previous : Char) :
    Text → Option (Text × β)
  | [] => (probe previous []).map fun found => ([], found)
  | c :: t =>
    match probe previous (c :: t) with
    | some found => some ([], found)
    | none =>
      if c = '\n' then none
      else (alongLine probe c t).map fun (skipped, found) => (c :: skipped, found)

/-- What `alongLine` skips holds no line break, and the answer is the probe's at the text
behind it. -/
theorem eq_append_of_alongLine {β : Type} {probe : Char → Text → Option β} {previous : Char}
    {t skipped : Text} {found : β} (h : alongLine probe previous t = some (skipped, found)) :
    '\n' ∉ skipped ∧ ∃ p s, t = skipped ++ s ∧ probe p s = some found := by
  induction t generalizing previous skipped with
  | nil =>
    rw [alongLine] at h
    obtain ⟨b, hb, heq⟩ := Option.map_eq_some_iff.1 h
    simp only [Prod.mk.injEq] at heq
    obtain ⟨rfl, rfl⟩ := heq
    exact ⟨by simp, previous, [], rfl, hb⟩
  | cons c t ih =>
    rw [alongLine] at h
    split at h
    · rename_i b hb
      simp only [Option.some.injEq, Prod.mk.injEq] at h
      obtain ⟨rfl, rfl⟩ := h
      exact ⟨by simp, previous, c :: t, rfl, hb⟩
    · split at h
      · simp at h
      · rename_i hc
        obtain ⟨⟨s, b⟩, hb, heq⟩ := Option.map_eq_some_iff.1 h
        simp only [Prod.mk.injEq] at heq
        obtain ⟨rfl, rfl⟩ := heq
        obtain ⟨hn, p, u, rfl, hp⟩ := ih hb
        exact ⟨by simp [hn, Ne.symm hc], p, u, rfl, hp⟩

/-- The text behind the next `c` on this line, and what stands before it. -/
def throughLine? (c : Char) (t : Text) : Option (Text × Text) :=
  alongLine (fun _ s => after? [c] s) ' ' t

theorem eq_append_of_throughLine? {c : Char} {t before rest : Text}
    (h : throughLine? c t = some (before, rest)) : t = before ++ c :: rest := by
  obtain ⟨_, _, s, rfl, hs⟩ := eq_append_of_alongLine h
  rw [eq_append_of_after? hs]
  simp

end MermaidPress.Text
