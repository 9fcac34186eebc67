/-
Reading from the front of a document: blanks, line ends and comments. What reads something
gives it with the rest of the text, and with the proof that the rest is shorter, so loops
over a document always end.
-/
import MermaidPress.Toml.Fault

namespace MermaidPress.Toml

/-- Something read, with the rest of the text: fewer than `n` characters. -/
structure Taken (α : Type) (n : Nat) where
  value : α
  rest : Text
  shorter : rest.length < n

/-- What reads something from the front of a text. -/
abbrev Reader (α : Type) := (t : Text) → Except Stop (Taken α t.length)

/-- What is left of a text of `n` characters. -/
abbrev Rest (n : Nat) := { rest : Text // rest.length ≤ n }

/-- A fault at the front of a text. -/
def fail {α : Type} (fault : Fault) (t : Text) : Except Stop α := .error ⟨fault, t.length⟩

/-- Something read at a place behind the front of a longer text. -/
def Taken.within {α : Type} {m n : Nat} (taken : Taken α m) (h : m ≤ n) : Taken α n :=
  { taken with shorter := Nat.lt_of_lt_of_le taken.shorter h }

/-- Another value in the place of the one read. -/
def Taken.map {α β : Type} {n : Nat} (f : α → β) (taken : Taken α n) : Taken β n where
  value := f taken.value
  rest := taken.rest
  shorter := taken.shorter

/-- Blanks inside a line. -/
def isBlank (c : Char) : Bool := c = ' ' || c = '\t'

/-- The characters that may stand in strings and comments. -/
def isPrintable (c : Char) : Bool := c = '\t' || (' ' ≤ c && c ≠ '\x7f')

theorem length_dropWhile_le (p : Char → Bool) (t : Text) : (t.dropWhile p).length ≤ t.length :=
  (List.dropWhile_sublist p).length_le

/-- The text behind the blanks at its front. -/
def skipBlanks (t : Text) : Rest t.length := ⟨t.dropWhile isBlank, length_dropWhile_le _ t⟩

theorem length_lt_cons (c : Char) (t : Text) : t.length < (c :: t).length := Nat.lt_succ_self _

/-- The text behind a word at its front. -/
def afterWord? (word t : Text) : Option (Rest t.length) :=
  match h : Text.after? word t with
  | none => none
  | some rest => some ⟨rest, by
      rw [Text.eq_append_of_after? h, List.length_append]
      exact Nat.le_add_left _ _⟩

/-- The text behind a character at its front. -/
def after? (c : Char) (t : Text) : Option (Taken Unit t.length) :=
  match t with
  | [] => none
  | d :: rest => if d = c then some ⟨(), rest, length_lt_cons d rest⟩ else none

/-- The text behind a line end at its front. -/
def afterLineEnd? (t : Text) : Option (Taken Unit t.length) :=
  match t with
  | '\n' :: rest => some ⟨(), rest, by simp⟩
  | '\r' :: '\n' :: rest => some ⟨(), rest, Nat.lt_succ_of_lt (Nat.lt_succ_self _)⟩
  | _ => none

/-- The text behind a comment at its front, if there is one. -/
def skipComment (t : Text) : Rest t.length :=
  match t with
  | '#' :: rest => ⟨rest.dropWhile isPrintable, Nat.le_succ_of_le (length_dropWhile_le _ rest)⟩
  | rest => ⟨rest, Nat.le_refl _⟩

/-- The text behind the end of the line, before which only blanks and a comment may stand. -/
def endLine (t : Text) : Except Stop (Rest t.length) :=
  let ⟨blanks, hb⟩ := skipBlanks t
  let ⟨line, hl⟩ := skipComment blanks
  if line.isEmpty then .ok ⟨[], Nat.zero_le _⟩
  else
    match afterLineEnd? line with
    | some taken => .ok ⟨taken.rest, by have := taken.shorter; omega⟩
    | none => fail .trailingText line

/-- The text behind all blanks, comments and line ends at its front. -/
def skipLines (t : Text) : Except Stop (Rest t.length) :=
  let ⟨blanks, hb⟩ := skipBlanks t
  let ⟨line, hl⟩ := skipComment blanks
  match afterLineEnd? line with
  | some taken => do
    let ⟨rest, hr⟩ ← skipLines taken.rest
    .ok ⟨rest, by have := taken.shorter; omega⟩
  | none =>
    if line.length = blanks.length || line.isEmpty then .ok ⟨line, by omega⟩
    else fail .controlCharacter line
termination_by t.length
decreasing_by
  have := taken.shorter
  omega

end MermaidPress.Toml
