/-
A session renders diagrams one after the other. It starts a browser when it first needs
one and keeps it until it is shut down; every diagram gets a tab of its own, which is closed
however the render goes. Time is that of the session's clock, which only replies and pauses
move; a wait with a limit looks at the work first, so work that is over at the very limit
still counts.

`render` writes the image only when the whole protocol and the closing of the tab went well.
-/
import MermaidPress.Render.Backend
import MermaidPress.Render.Page

namespace MermaidPress

/-- A session, with the machine it calls, the files it writes to and all calls so far. -/
structure Session (b : Backend) where
  options : SessionOptions := {}
  machine : b.State
  browser : Option b.Browser := none
  /-- Nanoseconds since the session began. -/
  clock : Nat := 0
  trace : List Entry := []
  files : FileSystem

/-- Work on a session that may fail; what was done until then stays done. -/
def Interaction (b : Backend) (ε α : Type) := Session b → Except ε α × Session b

/-- Work on a session that may fail as a render does. -/
abbrev Rendering (b : Backend) := Interaction b RenderError

instance {b : Backend} {ε : Type} : Monad (Interaction b ε) where
  pure a := fun s => (.ok a, s)
  bind work next := fun s =>
    match work s with
    | (.ok a, s) => next a s
    | (.error e, s) => (.error e, s)

namespace Session

variable {b : Backend} {ε α : Type}

/-- The size of the pages, in which every diagram fits. -/
def viewportSize : Nat × Nat := (2400, 1600)

/-- The margin around the diagram in its image. -/
def clipMargin : Float := 10.0

/-- The pause between two looks at a page. -/
def pollInterval : Duration := .ofMilliseconds 100

/-- Whether the session has a browser. -/
def isLaunched (s : Session b) : Bool := s.browser.isSome

/-- The session after a call. -/
def record (s : Session b) (call : Call) (answer : Answer) (overAt : Nat) (machine : b.State) :
    Session b :=
  { s with machine, clock := overAt, trace := s.trace ++ [⟨call, answer, s.clock, overAt⟩] }

/-- Makes a call and waits for its reply. -/
def ask (call : Call) (run : b.State → Reply α × b.State) (learn : α → Answer) :
    Rendering b α := fun s =>
  let (reply, machine) := run s.machine
  let answer := match reply.result with
    | .ok a => learn a
    | .error e => .failed e
  (reply.result, s.record call answer (s.clock + reply.delay.nanoseconds) machine)

/-- Makes a call and waits for its reply until `deadline`, at which it gives up. -/
def askUntil (deadline : Nat) (expired : RenderError) (call : Call)
    (run : b.State → Reply α × b.State) (learn : α → Answer) : Rendering b α := fun s =>
  let (reply, machine) := run s.machine
  if s.clock + reply.delay.nanoseconds ≤ deadline then ask call run learn s
  else (.error expired, s.record call .cutOff deadline machine)

/-- The result of an interaction, failed or not. -/
def attempt (work : Rendering b α) : Rendering b (Except RenderError α) := fun s =>
  let (result, s) := work s
  (.ok result, s)

/-- The options of the session. -/
def getOptions : Rendering b SessionOptions := fun s => (.ok s.options, s)

/-- An interaction with a result that is known already. -/
def settled (result : Except ε α) : Interaction b ε α := fun s => (result, s)

/-- The browser, started if there is none. -/
def acquire : Rendering b b.Browser := fun s =>
  match s.browser with
  | some browser => (.ok browser, s)
  | none =>
    match ask .launch b.launch (fun _ => .done) s with
    | (.ok browser, s) => (.ok browser, { s with browser := some browser })
    | (.error e, s) => (.error e, s)

/-- Closes the browser, if there is one. It is gone also where closing fails. -/
def shutdown : Rendering b Unit := fun s =>
  match s.browser with
  | none => (.ok (), s)
  | some browser =>
    ask .closeBrowser (b.closeBrowser browser) (fun _ => .done) { s with browser := none }

/-- The value of an expression on the page of a tab. -/
def evaluate (tab : b.Tab) (expression : Text) : Rendering b Json :=
  ask (.evaluate expression) (b.evaluate tab expression) .value

/-- The value of an expression, waited for until a deadline. -/
def evaluateUntil (deadline : Nat) (expired : RenderError) (tab : b.Tab) (expression : Text) :
    Rendering b Json :=
  askUntil deadline expired (.evaluate expression) (b.evaluate tab expression) .value

theorem clock_le_evaluateUntil {deadline : Nat} {expired : RenderError} {tab : b.Tab}
    {expression : Text} {s s' : Session b} {value : Json}
    (h : evaluateUntil deadline expired tab expression s = (.ok value, s')) :
    s.clock ≤ s'.clock := by
  simp only [evaluateUntil, askUntil] at h
  split at h
  · rw [← (Prod.mk.inj h).2]
    exact Nat.le_add_right _ _
  · exact nomatch (Prod.mk.inj h).1

/-- Looks at an expression again and again, with pauses, until it counts as true or the
deadline has come. -/
def poll (deadline : Nat) (expired : RenderError) (tab : b.Tab) (expression : Text)
    (s : Session b) : Except RenderError Unit × Session b :=
  match _h : evaluateUntil deadline expired tab expression s with
  | (.error e, s) => (.error e, s)
  | (.ok value, s') =>
    if value.isTruthy then (.ok (), s')
    else if _hd : s'.clock + pollInterval.nanoseconds ≤ deadline then
      poll deadline expired tab expression
        { s' with clock := s'.clock + pollInterval.nanoseconds }
    else (.error expired, { s' with clock := deadline })
termination_by deadline - s.clock
decreasing_by
  have := clock_le_evaluateUntil _h
  simp only [pollInterval, Duration.ofMilliseconds] at _hd ⊢
  omega

/-- Waits until an expression counts as true, at most as long as `limit`. -/
def waitUntil (tab : b.Tab) (expression : Text) (stage : WaitStage) (limit : Duration) :
    Rendering b Unit := fun s =>
  poll (s.clock + limit.nanoseconds) (.timeout stage limit) tab expression s

/-- Shows a page, waiting at most as long as `limit`. -/
def setContent (tab : b.Tab) (page : Text) (limit : Duration) : Rendering b Unit := fun s =>
  askUntil (s.clock + limit.nanoseconds) (.timeout .pageLoad limit) (.setContent page)
    (b.setContent tab page) (fun _ => .done) s

/-- The failure that a page reports through a value, if it is one: a text as it is, any
other value in JSON. -/
def engineFailure? (value : Json) : Option Text :=
  if value.isTruthy then
    match value with
    | .string t => some t
    | other => some other.write
  else none

/-- The protocol of one render on a fresh tab: what has to be true of the page, in this
order, before its picture is taken. -/
def renderOnTab (tab : b.Tab) (source : Text) (spec : RenderSpec) : Rendering b ByteArray := do
  let options ← getOptions
  let timeouts := options.timeouts
  if options.verbose then
    ask .forwardDiagnostics (b.forwardDiagnostics tab) fun _ => .done
  let viewport : Viewport :=
    { width := viewportSize.1, height := viewportSize.2, scale := spec.scale }
  ask (.setViewport viewport) (b.setViewport tab viewport) fun _ => .done
  setContent tab (Page.shell source options.script) timeouts.pageLoad
  waitUntil tab Page.documentReady .pageLoad timeouts.pageLoad
  waitUntil tab Page.renderSettled .render timeouts.render
  let failure ← evaluate tab Page.renderFailure
  match engineFailure? failure with
  | some text => settled (.error (.engine text))
  | none => pure ()
  waitUntil tab Page.diagramProcessed .settle timeouts.settle
  let selector := Page.diagramSelector
  let element ← ask (.findElement selector) (b.findElement tab selector) fun e => .found e.isSome
  match element with
  | none => settled (.error .elementNotFound)
  | some element =>
    match ← ask .boundingBox (b.boundingBox tab element) fun box => .found box.isSome with
    | none => settled (.error .dimensions)
    | some box =>
      let request : CaptureRequest :=
        { clip := box.expand clipMargin, format := spec.format, quality := spec.effectiveQuality }
      ask (.capture request) (b.capture tab request) fun _ => .done

/-- Writes an image. -/
def writeImage (output : Path) (image : ByteArray) : Rendering b Unit := fun s =>
  match s.files.writeBytes output image with
  | .ok files => (.ok (), { s with files })
  | .error cause => (.error (.unwritable output cause), s)

/-- Renders a diagram into a file. The failure of the protocol comes before that of
closing the tab. -/
def render (source : Text) (output : Path) (spec : RenderSpec) : Rendering b Unit := do
  let browser ← acquire
  let tab ← ask .openTab (b.openTab browser) fun _ => .done
  let rendered ← attempt (renderOnTab tab source spec)
  let closed ← attempt (ask .closeTab (b.closeTab tab) fun _ => .done)
  let image ← settled rendered
  settled closed
  writeImage output image

end Session
end MermaidPress
