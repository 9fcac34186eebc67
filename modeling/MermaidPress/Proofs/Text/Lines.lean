/-
Texts by their lines. A line ends with a line feed, or with a carriage return and a line feed; the
last line may have no ending. The `lines` of a text put together again are the text, and no line
has a line feed before its ending, so that the ending of a line is where the next one begins.
-/
import MermaidPress.Proofs.Text.Slice

namespace MermaidPress.Text

/-- A line, and what ends it. -/
structure Line where
  text : Text
  ending : Text
  deriving DecidableEq, Repr

/-- The line with its `ending`. -/
def Line.whole (line : Line) : Text := line.text ++ line.ending

/-- The lines of a text. -/
def lines : Text → List Line
  | [] => []
  | '\n' :: t => { text := [], ending := ['\n'] } :: lines t
  | '\r' :: '\n' :: t => { text := [], ending := ['\r', '\n'] } :: lines t
  | c :: t =>
    match lines t with
    | [] => [{ text := [c], ending := [] }]
    | line :: rest => { line with text := c :: line.text } :: rest

/-- The text of lines, each `whole`. -/
def unlines (ls : List Line) : Text := ls.flatMap Line.whole

@[simp] theorem unlines_nil : unlines [] = [] := rfl

@[simp] theorem unlines_cons (line : Line) (ls : List Line) :
    unlines (line :: ls) = line.whole ++ unlines ls := List.flatMap_cons

@[simp] theorem unlines_append (ls more : List Line) :
    unlines (ls ++ more) = unlines ls ++ unlines more := List.flatMap_append

/-- `unlines` puts together again what `lines` takes apart. -/
theorem unlines_lines (t : Text) : unlines (lines t) = t := by
  fun_induction lines t with
  | case1 => rfl
  | case2 t ih => rw [unlines_cons, ih]; rfl
  | case3 t ih => rw [unlines_cons, ih]; rfl
  | case4 c t _ _ hnil ih =>
    rw [hnil] at ih
    rw [unlines_cons, ← ih]
    rfl
  | case5 c t _ _ line rest hcons ih =>
    rw [hcons] at ih
    rw [unlines_cons, ← ih, unlines_cons]
    rfl

theorem ending_of_lines {t : Text} {line : Line} {rest : List Line} (h : lines t = line :: rest) :
    line.ending = [] ∧ rest = [] ∨ line.ending = ['\n'] ∨ line.ending = ['\r', '\n'] := by
  fun_induction lines t generalizing line rest with
  | case1 => cases h
  | case2 t => cases h; exact .inr (.inl rfl)
  | case3 t => cases h; exact .inr (.inr rfl)
  | case4 c t => cases h; exact .inl ⟨rfl, rfl⟩
  | case5 c t _ _ line' rest' hcons ih =>
    have hending := ih hcons
    cases h
    exact hending

/-- Behind the first of its `lines`, a text goes on with the others. -/
theorem exists_of_lines_cons {t : Text} {line : Line} {rest : List Line}
    (h : lines t = line :: rest) : ∃ t', t = line.whole ++ t' ∧ rest = lines t' := by
  fun_induction lines t generalizing line rest with
  | case1 => cases h
  | case2 t => cases h; exact ⟨t, rfl, rfl⟩
  | case3 t => cases h; exact ⟨t, rfl, rfl⟩
  | case4 c t _ _ hnil =>
    cases h
    have ht := unlines_lines t
    rw [hnil] at ht
    exact ⟨[], by rw [← ht]; rfl, rfl⟩
  | case5 c t _ _ line' rest' hcons ih =>
    cases h
    obtain ⟨t', rfl, hrest⟩ := ih hcons
    exact ⟨t', rfl, hrest⟩

theorem exists_of_lines_append {t : Text} {ls more : List Line} (h : lines t = ls ++ more) :
    ∃ t', t = unlines ls ++ t' ∧ more = lines t' := by
  induction ls generalizing t with
  | nil => exact ⟨t, rfl, h.symm⟩
  | cons line ls ih =>
    obtain ⟨t', rfl, hrest⟩ := exists_of_lines_cons h
    obtain ⟨t'', rfl, hmore⟩ := ih hrest.symm
    exact ⟨t'', by simp, hmore⟩

/-! ## Where lines begin -/

/-- What stands behind the text is on a line of its own. -/
def EndsLine (t : Text) : Prop := t = [] ∨ ∃ before, t = before ++ ['\n']

/-- A line begins at an offset: there the text begins, or a line feed has come before. -/
def LineAt (t : Text) (position : Nat) : Prop :=
  position = 0 ∨ slice? t (position - 1) position = some ['\n']

theorem EndsLine.lineAt {front : Text} (h : EndsLine front) (t : Text) :
    LineAt (front ++ t) (byteLength front) := by
  rcases h with rfl | ⟨before, rfl⟩
  · exact .inl rfl
  · refine .inr (slice?_eq_some_iff.2 ⟨before, t, rfl, ?_, ?_⟩)
    · rw [byteLength_append]
      rfl
    · rw [byteLength_append]
      rfl

theorem EndsLine.append_unlines {front t : Text} {ls more : List Line} (hfront : EndsLine front)
    (h : lines t = ls ++ more) (hne : more ≠ []) : EndsLine (front ++ unlines ls) := by
  induction ls generalizing front t with
  | nil => simpa using hfront
  | cons line ls ih =>
    obtain ⟨t', -, hrest⟩ := exists_of_lines_cons h
    have hnext : EndsLine (front ++ line.whole) := by
      unfold Line.whole
      rcases ending_of_lines h with ⟨-, hnil⟩ | hending | hending
      · exact absurd (List.append_eq_nil_iff.1 hnil).2 hne
      · exact .inr ⟨front ++ line.text, by rw [hending, List.append_assoc]⟩
      · exact .inr ⟨front ++ line.text ++ ['\r'], by rw [hending]; simp⟩
    simpa using ih hnext hrest.symm

end MermaidPress.Text
