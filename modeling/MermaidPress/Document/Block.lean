/-
Fenced diagrams in a document. A fence opens with three ticks, the word `mermaid` and a
line break, and closes with the next three ticks, wherever they stand; an opening without
three ticks behind it is plain text. `extract` finds the fences from left to right, each
with the place it has in the document.
-/
import MermaidPress.Text.Blank

namespace MermaidPress.Document

open Text

/-- Three ticks, which close a fence. -/
def closing : Text := "```".toList

/-- What an opening begins with. -/
def openingWord : Text := "```mermaid".toList

/-- An opening that begins here, with its line break, and the text behind it. -/
def opening? (t : Text) : Option (Text × Text) :=
  match after? openingWord t with
  | some ('\n' :: rest) => some (openingWord ++ ['\n'], rest)
  | some ('\r' :: '\n' :: rest) => some (openingWord ++ ['\r', '\n'], rest)
  | _ => none

theorem eq_append_of_opening? {t opening rest : Text} (h : opening? t = some (opening, rest)) :
    t = opening ++ rest ∧ opening ≠ [] := by
  unfold opening? at h
  split at h
  · rename_i r hr
    simp only [Option.some.injEq, Prod.mk.injEq] at h
    obtain ⟨rfl, rfl⟩ := h
    rw [eq_append_of_after? hr]
    simp
  · rename_i r hr
    simp only [Option.some.injEq, Prod.mk.injEq] at h
    obtain ⟨rfl, rfl⟩ := h
    rw [eq_append_of_after? hr]
    simp
  · simp at h

/-- The parts of a fence that begins here: its opening, its body and the text behind its
closing ticks. -/
def fence? (t : Text) : Option (Text × Text × Text) :=
  match opening? t with
  | none => none
  | some (opening, inside) =>
    (cut? closing inside).map fun (body, rest) => (opening, body, rest)

theorem eq_append_of_fence? {t opening body rest : Text}
    (h : fence? t = some (opening, body, rest)) :
    t = opening ++ body ++ closing ++ rest ∧ opening ≠ [] := by
  unfold fence? at h
  split at h
  · simp at h
  · rename_i ho
    obtain ⟨⟨b, r⟩, hc, heq⟩ := Option.map_eq_some_iff.1 h
    simp only [Prod.mk.injEq] at heq
    obtain ⟨rfl, rfl, rfl⟩ := heq
    obtain ⟨rfl, hne⟩ := eq_append_of_opening? ho
    rw [eq_append_of_cut? hc]
    simp [hne]

/-- A fenced diagram and its place in a document. -/
structure Block where
  /-- The diagram source: the body of the fence without the blanks around it. -/
  content : Text
  /-- Byte offset of the opening. -/
  start : Nat
  /-- Byte offset just past the closing ticks. -/
  stop : Nat
  /-- The text of the span, fences included. -/
  full : Text
  deriving DecidableEq, Repr

namespace Block

/-- The length of the span in bytes. -/
def length (block : Block) : Nat := block.stop - block.start

/-- Whether the span is empty. -/
def isEmpty (block : Block) : Bool := block.length == 0

/-- The text of the span before and behind the content, found by byte offsets: the content
begins behind the first line and the blanks that follow it, and is as long as it is.
Nothing where the block's text has no such place. -/
def frame? (block : Block) : Option (Text × Text) := do
  let fence := block.full
  let size := byteLength fence
  let opened := (upTo? '\n' fence).elim 0 fun (line, _) => byteLength line + 1
  guard (byteLength closing ≤ size)
  let inner ← slice? fence opened (size - byteLength closing)
  let start := opened + (byteLength inner - byteLength (trimLeft inner))
  let before ← slice? fence 0 start
  let behind ← slice? fence (start + byteLength block.content) size
  some (before, behind)

/-- The text of the span with `content` in place of the block's own. The fences and the
blanks around the content stay; a block without a frame is replaced altogether. -/
def withContent (block : Block) (content : Text) : Text :=
  let (before, behind) := block.frame?.getD ([], [])
  before ++ content ++ behind

end Block

/-- The fenced diagrams of a text that begins at byte `offset` of its document. -/
def blocksFrom (offset : Nat) (t : Text) : List Block :=
  match _h : fence? t with
  | some (opening, body, rest) =>
    let full := opening ++ body ++ closing
    let stop := offset + byteLength full
    { content := trim body, start := offset, stop, full } :: blocksFrom stop rest
  | none =>
    match t with
    | [] => []
    | c :: t => blocksFrom (offset + c.utf8Size) t
termination_by t.length
decreasing_by
  · have := congrArg List.length (eq_append_of_fence? _h).1
    simp [closing] at this ⊢
    omega
  · simp

/-- The fenced diagrams of a document, in document order. -/
def extract (document : Text) : List Block := blocksFrom 0 document

end MermaidPress.Document
