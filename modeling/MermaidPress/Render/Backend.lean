/-
What a session needs of a browser. A backend is a machine with a state of its own: each
call takes some time, gives a result or fails, and leaves the machine in a new state. All
that a session knows of browsers, tabs and elements are the handles it gets from here.
-/
import MermaidPress.Json
import MermaidPress.Render.Error
import MermaidPress.Render.Spec

namespace MermaidPress

/-- A rectangle on a page. -/
structure Box where
  x : Float
  y : Float
  width : Float
  height : Float

/-- The box with a margin on all four sides. -/
def Box.expand (box : Box) (margin : Float) : Box where
  x := box.x - margin
  y := box.y - margin
  width := box.width + 2.0 * margin
  height := box.height + 2.0 * margin

/-- The size of a page and how many device pixels one of its pixels has. -/
structure Viewport where
  width : Nat
  height : Nat
  scale : Float

/-- A picture of a part of a page. The quality is left out for formats without one. -/
structure CaptureRequest where
  clip : Box
  format : ImageFormat
  quality : Option UInt8

/-- What a call comes to: how long it takes and what it gives. -/
structure Reply (α : Type) where
  delay : Duration := ⟨0⟩
  result : Except RenderError α

/-- A reply at once. -/
def Reply.now {α : Type} (a : α) : Reply α := { result := .ok a }

/-- The browser side: how it answers each call. -/
structure Backend where
  State : Type
  Browser : Type
  Tab : Type
  Element : Type
  launch : State → Reply Browser × State
  openTab : Browser → State → Reply Tab × State
  closeBrowser : Browser → State → Reply Unit × State
  /-- From now on passes on what the page of the tab says. -/
  forwardDiagnostics : Tab → State → Reply Unit × State
  setViewport : Tab → Viewport → State → Reply Unit × State
  /-- Shows a page and waits until it is there. -/
  setContent : Tab → Text → State → Reply Unit × State
  evaluate : Tab → Text → State → Reply Json × State
  /-- The first element that a selector matches. -/
  findElement : Tab → Text → State → Reply (Option Element) × State
  boundingBox : Tab → Element → State → Reply (Option Box) × State
  capture : Tab → CaptureRequest → State → Reply ByteArray × State
  closeTab : Tab → State → Reply Unit × State

/-- A call to the browser side. -/
inductive Call
  | launch
  | openTab
  | closeBrowser
  | forwardDiagnostics
  | setViewport (viewport : Viewport)
  | setContent (page : Text)
  | evaluate (expression : Text)
  | findElement (selector : Text)
  | boundingBox
  | capture (request : CaptureRequest)
  | closeTab

/-- What a session learnt from a call. -/
inductive Answer
  | done
  /-- The value of an evaluation. -/
  | value (value : Json)
  /-- Whether something was found. -/
  | found (yes : Bool)
  | failed (cause : RenderError)
  /-- The limit of a wait came first. -/
  | cutOff

/-- A call with its answer, and when it was made and over, in nanoseconds since the session
began. -/
structure Entry where
  call : Call
  answer : Answer
  madeAt : Nat
  overAt : Nat

end MermaidPress
