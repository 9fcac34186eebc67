/-
Documents: the table that the statements of a text put together. Keys go into the table of
the last header. All statements are read before the first of them is carried out, so a line
that cannot be read is reported before one that contradicts an earlier one.
-/
import MermaidPress.Toml.Statement

namespace MermaidPress.Toml

/-- A document in the making: its entries and the path of the last header. -/
structure Draft where
  entries : Entries := []
  here : List Text := []

/-- Opens the table of a header. -/
def Draft.enter (draft : Draft) (keys : KeyPath)
    (act : Entries → List Text → Text → Except Fault Entries.Shape) : Except Fault Draft := do
  if keys.isValid then
    let (_, entries) ← act draft.entries keys.names keys.key.text
    .ok { entries, here := keys.allNames }
  else .error .invalidKey

/-- Carries out a statement. -/
def Draft.add (draft : Draft) : Statement → Except Fault Draft
  | .blank => .ok draft
  | .header keys => draft.enter keys Entries.define
  | .tablesHeader keys => draft.enter keys Entries.append
  | .assign keys value =>
    if keys.isValid then do
      let (_, entries) ← Entries.change .implied
        (fun origin inner => inner.assign origin keys.names keys.key.text value)
        draft.here .header draft.entries
      .ok { draft with entries }
    else .error .invalidKey

/-- Carries out statements in turn; the first fault is that of its place. -/
def Draft.addAll (draft : Draft) : List Placed → Except Stop Draft
  | [] => .ok draft
  | placed :: rest =>
    match draft.add placed.statement with
    | .error fault => .error ⟨fault, placed.left⟩
    | .ok next => next.addAll rest

/-- The text without the mark of its byte order. -/
def withoutMark : Text → Text
  | '\ufeff' :: t => t
  | t => t

/-- The table of a document. -/
def read (document : Text) : Except Problem Entries :=
  let text := withoutMark document
  match statements text with
  | .error stop => .error (stop.locate text)
  | .ok placed =>
    match Draft.addAll {} placed with
    | .error stop => .error (stop.locate text)
    | .ok draft => .ok draft.entries

end MermaidPress.Toml
