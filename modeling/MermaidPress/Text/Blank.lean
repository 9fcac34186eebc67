/-
White space. A character is blank when it has the Unicode property White_Space, which has
25 members. `trim` drops the blank characters on both sides of a text and keeps the rest.
-/
import MermaidPress.Text.Basic

namespace MermaidPress.Text

/-- The characters of the Unicode property White_Space. -/
def isBlank (c : Char) : Bool :=
  let n := c.toNat
  (0x09 ≤ n && n ≤ 0x0D) || n == 0x20 || n == 0x85 || n == 0xA0 || n == 0x1680 ||
    (0x2000 ≤ n && n ≤ 0x200A) || n == 0x2028 || n == 0x2029 || n == 0x202F || n == 0x205F ||
    n == 0x3000

/-- The text without its leading blanks. -/
def trimLeft (t : Text) : Text := t.dropWhile isBlank

/-- The text without its trailing blanks. -/
def trimRight (t : Text) : Text := (t.reverse.dropWhile isBlank).reverse

/-- The text without the blanks on either side. -/
def trim (t : Text) : Text := trimRight (trimLeft t)

/-- Every blank of ASCII is blank here. -/
theorem isBlank_of_isWhitespace {c : Char} (h : c.isWhitespace = true) : isBlank c = true := by
  simp only [Char.isWhitespace, Bool.or_eq_true, decide_eq_true_eq] at h
  rcases h with ((rfl | rfl) | rfl) | rfl <;> decide

theorem takeWhile_append_trimLeft (t : Text) : t.takeWhile isBlank ++ trimLeft t = t :=
  List.takeWhile_append_dropWhile

end MermaidPress.Text
