/-
Pieces of diagram source that both the checks and the repairs look for: a group in
parentheses, the characters of words, and arrows.
-/
import MermaidPress.Text.Blank
import MermaidPress.Text.Replacement

namespace MermaidPress.Diagram

open Text

/-- The arrow of a flow chart. -/
def arrow : Text := "-->".toList

/-- The operators that a formula in parentheses is recognised by. -/
def isOperator (c : Char) : Bool := c == '-' || c == '+' || c == '*' || c == '/'

/-- The characters of words, for the edges of words: letters and digits of ASCII and the
low line. -/
def isWord (c : Char) : Bool := c.isAlphanum || c == '_'

/-- What stands in a group in parentheses that begins here, up to the first closing
parenthesis, and the text behind it. -/
def group? : Text → Option (Text × Text)
  | '(' :: t => upTo? ')' t
  | _ => none

theorem eq_of_group? {t inner rest : Text} (h : group? t = some (inner, rest)) :
    t = '(' :: inner ++ ')' :: rest := by
  unfold group? at h
  split at h
  · rw [(upTo?_eq_some h).1, List.cons_append]
  · simp at h

/-- A nonempty run of ASCII letters and digits that begins here, and the text behind it. -/
def token? (t : Text) : Option (Text × Text) :=
  if (t.takeWhile Char.isAlphanum).isEmpty then none
  else some (t.takeWhile Char.isAlphanum, t.dropWhile Char.isAlphanum)

theorem eq_append_of_token? {t token rest : Text} (h : token? t = some (token, rest)) :
    t = token ++ rest ∧ token ≠ [] := by
  unfold token? at h
  split at h
  · simp at h
  · rename_i hne
    simp only [Option.some.injEq, Prod.mk.injEq] at h
    obtain ⟨rfl, rfl⟩ := h
    exact ⟨List.takeWhile_append_dropWhile.symm, by simpa using hne⟩

/-- The text behind an arrow that begins here. -/
def afterArrow? (t : Text) : Option Text := after? arrow t

/-- The text behind an arrow that begins here, the blanks that follow the arrow and a second
arrow head. -/
def afterDoubledHead? (t : Text) : Option Text := do
  let rest ← afterArrow? t
  after? ['>'] (trimLeft rest)

theorem length_trimLeft_le (t : Text) : (trimLeft t).length ≤ t.length :=
  (List.dropWhile_suffix isBlank).length_le

theorem length_of_after? {lead t rest : Text} (h : after? lead t = some rest) :
    t.length = lead.length + rest.length := by
  rw [eq_append_of_after? h, List.length_append]

end MermaidPress.Diagram
