/-
The parts of a conversion. All that it does with its session is to render and to work on the files,
so a relation of sessions that neither leaves (`KeptByParts`) is not left by a conversion, wherever
that stops. In the same way conversions do not see the numbers of browsers and tabs, since renders
do not.
-/
import MermaidPress.Proofs.Convert.Reconverting
import MermaidPress.Proofs.Render.Numbering

namespace MermaidPress

open Interaction Document

variable {b : Backend} {α β ε : Type}

namespace Conversion

/-! ## What parts keep -/

/-- A relation of sessions that neither renders nor work on the files leave. -/
structure KeptByParts (R : Session b → Session b → Prop) : Prop where
  refl : ∀ s, R s s
  trans : ∀ {s t u}, R s t → R t u → R s u
  files : ∀ s files, R s { s with files }
  render : ∀ source output spec, Within R (Session.render source output spec)

namespace KeptByParts

variable {R : Session b → Session b → Prop}

theorem settled (h : KeptByParts R) (result : Except ε α) :
    Within R (Session.settled result : Interaction b ε α) := fun s => h.refl s

theorem onFiles (h : KeptByParts R) (path : Path) (run : FileSystem → FileSystem.Outcome) :
    Within R (Conversion.onFiles path run) := fun s => h.files s _

theorem renderBlocks (h : KeptByParts R) (options : ConversionOptions) (path : Path)
    (blocks : List Block) (index : Nat) :
    Within R (Conversion.renderBlocks options path index blocks) := by
  induction blocks generalizing index with
  | nil => exact h.settled (.ok [])
  | cons block blocks ih =>
    unfold Conversion.renderBlocks
    refine .bind h.trans (fun s => ?_) fun _ => ?_
    · rw [snd_ofRendering]
      exact h.render block.content _ options.renderSpec s
    refine .bind h.trans (fun s => h.refl s) fun current => ?_
    exact .bind h.trans (ih (index + 1)) fun others => h.settled (.ok _)

theorem convertText (h : KeptByParts R) (document : Text) (path : Path)
    (options : ConversionOptions) : Within R (Conversion.convertText document path options) := by
  by_cases hne : extract document = []
  · intro s
    rw [convertText_of_extract_eq_nil hne]
    exact h.refl s
  · rw [convertText_eq hne]
    split
    · exact h.settled (.ok _)
    · refine .bind h.trans ?_ fun rendered => h.settled (.ok _)
      refine .bind h.trans (h.onFiles _ _) fun _ => ?_
      refine .bind h.trans (h.renderBlocks options path _ 1) fun rendered => ?_
      exact .bind h.trans (h.settled _) fun content => h.settled (.ok _)

theorem writeDocument (h : KeptByParts R) (path : Path) (text? : Option Text) :
    Within R (Conversion.writeDocument path text?) := by
  cases text? with
  | none => exact h.settled (.ok none)
  | some text => exact .bind h.trans (h.onFiles _ _) fun _ => h.settled (.ok _)

/-- **What the parts of a conversion keep, `convertFile` keeps**, wherever it stops. -/
theorem convertFile (h : KeptByParts R) (path : Path) (options : ConversionOptions) :
    Within R (Conversion.convertFile path options) := by
  refine .bind h.trans (fun s => ?_) fun document => ?_
  · unfold readDocument
    split <;> exact h.refl s
  refine .bind h.trans (h.convertText document path options) fun converted => ?_
  refine .bind h.trans (h.writeDocument _ _) fun fixedFile => ?_
  exact .bind h.trans (h.writeDocument _ _) fun outputFile => h.settled (.ok _)

end KeptByParts

/-! ## Numbers -/

theorem mirrors_ofRendering {f : α → β} {work' : Rendering b.numbered α} {work : Rendering b β}
    (h : Mirrors f work' work) (index : Nat) :
    Mirrors f (ofRendering index work') (ofRendering index work) := fun s => by
  unfold ofRendering
  rw [h s]
  cases work' s with
  | mk result t => cases result <;> rfl

theorem mirrors_onFiles (path : Path) (run : FileSystem → FileSystem.Outcome) :
    Mirrors (b := b) id (onFiles path run) (onFiles path run) := fun s => by
  rw [Except.map_id]
  rfl

theorem mirrors_readDocument (path : Path) :
    Mirrors (b := b) id (readDocument path) (readDocument path) := fun s => by
  have hfiles : s.forget.files = s.files := rfl
  rw [readDocument, readDocument, hfiles]
  cases s.files.readText path <;> rfl

theorem mirrors_currentDirectory :
    Mirrors (b := b) (ε := ConvertError) id currentDirectory currentDirectory := fun _ => rfl

theorem mirrors_renderBlocks (options : ConversionOptions) (path : Path) (blocks : List Block)
    (index : Nat) :
    Mirrors (b := b) id (renderBlocks options path index blocks)
      (renderBlocks options path index blocks) := by
  induction blocks generalizing index with
  | nil => exact Session.mirrors_settled (.ok [])
  | cons block blocks ih =>
    unfold renderBlocks
    refine .bind (mirrors_ofRendering (Session.mirrors_render _ _ _) index) fun _ => ?_
    refine .bind mirrors_currentDirectory fun current => ?_
    exact .bind (ih (index + 1)) fun others => Session.mirrors_settled (.ok _)

theorem mirrors_convertText (document : Text) (path : Path) (options : ConversionOptions) :
    Mirrors (b := b) id (convertText document path options)
      (convertText document path options) := by
  by_cases hne : extract document = []
  · intro s
    rw [convertText_of_extract_eq_nil hne, convertText_of_extract_eq_nil hne]
    rfl
  · rw [convertText_eq hne, convertText_eq hne]
    split
    · exact Session.mirrors_settled (.ok _)
    · refine .bind ?_ fun rendered => Session.mirrors_settled (.ok _)
      refine .bind (mirrors_onFiles _ _) fun _ => ?_
      refine .bind (mirrors_renderBlocks options path _ 1) fun rendered => ?_
      exact .bind (Session.mirrors_settled _) fun content => Session.mirrors_settled (.ok _)

theorem mirrors_writeDocument (path : Path) (text? : Option Text) :
    Mirrors (b := b) id (writeDocument path text?) (writeDocument path text?) := by
  cases text? with
  | none => exact Session.mirrors_settled (.ok none)
  | some text => exact .bind (mirrors_onFiles _ _) fun _ => Session.mirrors_settled (.ok _)

/-- `convertFile` does not see the numbers of browsers and tabs. -/
theorem mirrors_convertFile (path : Path) (options : ConversionOptions) :
    Mirrors (b := b) id (convertFile path options) (convertFile path options) := by
  refine .bind (mirrors_readDocument path) fun document => ?_
  refine .bind (mirrors_convertText document path options) fun converted => ?_
  refine .bind (mirrors_writeDocument _ _) fun fixedFile => ?_
  exact .bind (mirrors_writeDocument _ _) fun outputFile => Session.mirrors_settled (.ok _)

end Conversion
end MermaidPress
