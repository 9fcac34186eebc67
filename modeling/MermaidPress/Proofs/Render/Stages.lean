/-
The stages of a render on its tab. The tab is got ready, the page is loaded, and what is on it is
photographed once the script has come to its end. The program of a render is these three, one after
the other; what is said of a stage is said of any session that it begins in.
-/
import MermaidPress.Proofs.Render.Interaction

namespace MermaidPress.Session

open Interaction

variable {b : Backend}

/-- Passes on what the page says, if that is asked for. -/
def forward (tab : b.Tab) (verbose : Bool) : Rendering b Unit :=
  if verbose then ask .forwardDiagnostics (b.forwardDiagnostics tab) fun _ => .done else pure ()

/-- Gives the page its size. -/
def resize (tab : b.Tab) (spec : RenderSpec) : Rendering b Unit :=
  let viewport : Viewport :=
    { width := viewportSize.1, height := viewportSize.2, scale := spec.scale }
  ask (.setViewport viewport) (b.setViewport tab viewport) fun _ => .done

/-- The loading of a page: it is shown, and then waited for until it is there as a whole. -/
def loadPage (tab : b.Tab) (page : Text) (limit : Duration) : Rendering b Unit := do
  setContent tab page limit
  waitUntil tab Page.documentReady .pageLoad limit

/-- Waits until the script has come to its end and the diagram is there, and takes its picture. -/
def photograph (tab : b.Tab) (spec : RenderSpec) (timeouts : Timeouts) : Rendering b ByteArray := do
  waitUntil tab Page.renderSettled .render timeouts.render
  let failure ← evaluate tab Page.renderFailure
  match engineFailure? failure with
  | some text => settled (.error (.engine text))
  | none => pure ()
  waitUntil tab Page.diagramProcessed .settle timeouts.settle
  let selector := Page.diagramSelector
  let element ← ask (.findElement selector) (b.findElement tab selector) fun e => .found e.isSome
  match element with
  | none => settled (.error .elementNotFound)
  | some element =>
    match ← ask .boundingBox (b.boundingBox tab element) fun box => .found box.isSome with
    | none => settled (.error .dimensions)
    | some box =>
      let request : CaptureRequest :=
        { clip := box.expand clipMargin, format := spec.format, quality := spec.effectiveQuality }
      ask (.capture request) (b.capture tab request) fun _ => .done

/-- `renderOnTab` is its stages, one after the other. -/
theorem renderOnTab_eq_stages (tab : b.Tab) (source : Text) (spec : RenderSpec) :
    (renderOnTab tab source spec : Rendering b ByteArray) = (do
      let options ← getOptions
      forward tab options.verbose
      resize tab spec
      loadPage tab (Page.shell source options.script) options.timeouts.pageLoad
      photograph tab spec options.timeouts) := by
  unfold renderOnTab forward resize loadPage photograph
  simp only [bind_assoc]
  congr 1
  funext options
  cases options.verbose with
  | true => rfl
  | false => rfl

end MermaidPress.Session
