/-
Why a render fails, and the wording of each failure.
-/
import MermaidPress.FileSystem.Basic
import MermaidPress.Render.Duration

namespace MermaidPress

/-- A wait with a limit. -/
inductive WaitStage
  | pageLoad
  | render
  | settle
  deriving DecidableEq, Repr

/-- What is waited for. -/
def WaitStage.description : WaitStage → String
  | pageLoad => "page load"
  | render => "diagram render"
  | settle => "diagram post-processing"

/-- Why a diagram was not rendered. -/
inductive RenderError
  /-- No browser could be started. -/
  | launch (text : Text)
  /-- The browser refused a call. -/
  | browser (text : Text)
  /-- A wait reached its limit. -/
  | timeout (stage : WaitStage) (limit : Duration)
  /-- The page reported that the diagram is wrong. -/
  | engine (text : Text)
  | elementNotFound
  | dimensions
  /-- The image could not be written. -/
  | unwritable (path : Path) (cause : FileSystem.Error)
  deriving DecidableEq, Repr

/-- The wording of a failure. -/
def RenderError.message : RenderError → String
  | launch text => "Failed to launch browser: " ++ String.ofList text
  | browser text => "Browser error: " ++ String.ofList text
  | timeout stage limit =>
    "Timed out after " ++ String.ofList limit.secondsText ++ "s waiting for " ++ stage.description
  | engine text => "Mermaid render failed: " ++ String.ofList text
  | elementNotFound => "Failed to find diagram element"
  | dimensions => "Failed to get diagram dimensions"
  | unwritable path cause => "Failed to write " ++ String.ofList path ++ ": " ++ cause.message

end MermaidPress
