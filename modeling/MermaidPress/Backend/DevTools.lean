/-
Chromium as a backend. The browser is an executable that is started with fixed flags and
then called over the DevTools protocol; here is what the calls are, and what is made of
their answers. An expression without a value counts as null, the first match of a selector
is the element, and an element whose shape cannot be told has no box. What the page says is
kept once a tab passes it on, with its control characters as escapes.
-/
import MermaidPress.Render.Session
import MermaidPress.Text.Terminal

namespace MermaidPress

namespace DevTools

/-- Why a call over the protocol fails. -/
inductive Failure
  | refused (code : Int) (text : Text)
  /-- A node that stands for no object. -/
  | noObject (node : Nat)
  deriving DecidableEq, Repr

/-- The wording of a failure. -/
def Failure.message : Failure → String
  | refused code text => s!"Error {code}: " ++ String.ofList text
  | noObject node => s!"No object Id found for NodeId({node})"

/-- A value of the page, as the protocol describes it. -/
structure RemoteObject where
  value : Option Json := none
  description : Option Text := none

/-- The kind of a console message. -/
inductive ConsoleKind
  | log
  | info
  | debug
  | warning
  | error
  deriving DecidableEq, Repr

/-- Something that a page says. -/
inductive PageEvent
  | console (kind : ConsoleKind) (arguments : List RemoteObject)
  /-- An uncaught exception, with the object thrown, if there is one. -/
  | exception (text : Text) (thrown : Option RemoteObject)

end DevTools

/-- A browser that is called over the protocol. Targets and nodes are known by numbers. -/
structure DevTools where
  State : Type
  /-- A new process of the browser, with the flags that it is started with. -/
  start : List Text → State → State
  createTarget : Text → State → Except DevTools.Failure Nat × State
  closeBrowser : State → State
  /-- Sets the viewport and whether it is that of a mobile device. -/
  setDeviceMetrics : Nat → Viewport → Bool → State → Except DevTools.Failure Unit × State
  /-- Shows a document; what the page says meanwhile comes with the answer. -/
  setDocument : Nat → Text → State →
    (Except DevTools.Failure Unit × List DevTools.PageEvent) × State
  evaluate : Nat → Text → State → Except DevTools.Failure DevTools.RemoteObject × State
  /-- The nodes that a selector matches. -/
  querySelectorAll : Nat → Text → State → Except DevTools.Failure (List Nat) × State
  describeNode : Nat → Nat → State → Except DevTools.Failure Unit × State
  resolveNode : Nat → Nat → State → Except DevTools.Failure Unit × State
  /-- The corners of a node's border, each with its two coordinates. -/
  borderQuad : Nat → Nat → State → Except DevTools.Failure (List (Float × Float)) × State
  /-- A picture of a clip at a scale. -/
  captureScreenshot : Nat → CaptureRequest → Float → State →
    Except DevTools.Failure ByteArray × State
  closeTarget : Nat → State → Except DevTools.Failure Unit × State

namespace Chromium

open DevTools (Failure RemoteObject PageEvent ConsoleKind)

/-- What stands behind the path of a browser. -/
inductive Executable
  | runs
  | missing (path : Path)
  | forbidden
  /-- No path was given and no browser was found. -/
  | undetected
  deriving DecidableEq, Repr

/-- What stands behind the path of a browser, where `isBrowser` knows browsers. -/
def Executable.ofPath (fs : FileSystem) (isBrowser : Path → Bool) : Option Path → Executable
  | none => undetected
  | some path =>
    if isBrowser path then runs
    else if fs.has path then forbidden
    else missing path

/-- Why an executable cannot be started, if it cannot. -/
def Executable.refusal? : Executable → Option Text
  | runs => none
  | missing path => some ("could not canonicalize \x60".toList ++ path ++ ['\x60'])
  | forbidden => some FileSystem.Error.permissionDenied.message.toList
  | undetected => some "Could not auto detect a chrome executable".toList

/-- The flags that a browser is started with. -/
def flags : List Text :=
  ["--disable-setuid-sandbox".toList, "--headless".toList, "--no-sandbox".toList]

/-- The page of a tab that shows nothing yet. -/
def blankPage : Text := "about:blank".toList

/-- The scale of a clip in pictures. -/
def clipScale : Float := 1.0

/-- A value as the console shows it: a text as it is, any other value in JSON, and without a
value the description. -/
def objectText (object : RemoteObject) : Text :=
  match object.value, object.description with
  | some (.string t), _ => t
  | some value, _ => value.write
  | none, some description => description
  | none, none => []

/-- The name of a kind of message. -/
def kindName : ConsoleKind → Text
  | .log => "Log".toList
  | .info => "Info".toList
  | .debug => "Debug".toList
  | .warning => "Warning".toList
  | .error => "Error".toList

/-- What was passed on from pages: console lines and page errors. -/
structure Diagnostics where
  console : List Text := []
  pageErrors : List Text := []
  deriving DecidableEq, Repr

/-- A console message as one line. -/
def consoleLine (kind : ConsoleKind) (arguments : List RemoteObject) : Text :=
  (Path.joinWith ' ' (arguments.map objectText)).flatMap Terminal.logged ++ " kind=".toList ++
    kindName kind

/-- What an exception is reported as: the description of what was thrown, or else its own
text. -/
def exceptionText (text : Text) (thrown : Option RemoteObject) : Text :=
  ((thrown.bind fun object => object.description).getD text).flatMap Terminal.logged

/-- Keeps what a page says. -/
def Diagnostics.add (d : Diagnostics) : PageEvent → Diagnostics
  | .console kind arguments => { d with console := d.console ++ [consoleLine kind arguments] }
  | .exception text thrown => { d with pageErrors := d.pageErrors ++ [exceptionText text thrown] }

/-- The extent of the corners of an element; none where there are no corners. -/
def extent? : List (Float × Float) → Option Box
  | [] => none
  | (x, y) :: corners =>
    let least (a b : Float) := if b < a then b else a
    let most (a b : Float) := if a < b then b else a
    let left := corners.foldl (fun a c => least a c.1) x
    let top := corners.foldl (fun a c => least a c.2) y
    let right := corners.foldl (fun a c => most a c.1) x
    let bottom := corners.foldl (fun a c => most a c.2) y
    some { x := left, y := top, width := right - left, height := bottom - top }

/-- The state of the backend: the executable, the browser behind it, the tabs that pass on
what their pages say, and what was passed on. -/
structure State (d : DevTools) where
  executable : Executable
  remote : d.State
  listening : List Nat := []
  diagnostics : Diagnostics := {}

variable {d : DevTools} {α : Type}

/-- A call over the protocol as a reply. -/
def reply (answer : Except Failure α) : Reply α where
  result := match answer with
    | .ok a => .ok a
    | .error e => .error (.browser e.message.toList)

/-- Makes a call over the protocol. -/
def State.call (s : State d) (run : d.State → Except Failure α × d.State) :
    Except Failure α × State d :=
  let (answer, remote) := run s.remote
  (answer, { s with remote })

/-- Describes and resolves nodes in turn, up to the first that fails. -/
def State.inspect (s : State d) (tab : Nat) : List Nat → Except Failure Unit × State d
  | [] => (.ok (), s)
  | node :: rest =>
    match s.call (d.describeNode tab node) with
    | (.error e, s) => (.error e, s)
    | (.ok _, s) =>
      match s.call (d.resolveNode tab node) with
      | (.error e, s) => (.error e, s)
      | (.ok _, s) => s.inspect tab rest

/-- The first node that a selector matches, once all that match are inspected. -/
def State.find (s : State d) (tab : Nat) (selector : Text) :
    Except Failure (Option Nat) × State d :=
  match s.call (d.querySelectorAll tab selector) with
  | (.error e, s) => (.error e, s)
  | (.ok nodes, s) =>
    match s.inspect tab nodes with
    | (.error e, s) => (.error e, s)
    | (.ok _, s) => (.ok nodes.head?, s)

/-- Chromium as a backend, over a browser that is called by the protocol. -/
def backend (d : DevTools) : Backend where
  State := State d
  Browser := Unit
  Tab := Nat
  Element := Nat
  launch s :=
    match s.executable.refusal? with
    | some text => ({ result := .error (.launch text) }, s)
    | none => (.now (), { s with remote := d.start flags s.remote })
  openTab _ s :=
    let (answer, s) := s.call (d.createTarget blankPage)
    (reply answer, s)
  closeBrowser _ s := (.now (), { s with remote := d.closeBrowser s.remote, listening := [] })
  forwardDiagnostics tab s := (.now (), { s with listening := tab :: s.listening })
  setViewport tab viewport s :=
    let (answer, s) := s.call (d.setDeviceMetrics tab viewport false)
    (reply answer, s)
  setContent tab page s :=
    let ((answer, events), remote) := d.setDocument tab page s.remote
    let diagnostics :=
      if s.listening.contains tab then events.foldl Diagnostics.add s.diagnostics
      else s.diagnostics
    (reply answer, { s with remote, diagnostics })
  evaluate tab expression s :=
    let (answer, s) := s.call (d.evaluate tab expression)
    (reply (answer.map fun object => object.value.getD .null), s)
  findElement tab selector s :=
    let (answer, s) := s.find tab selector
    (reply answer, s)
  boundingBox tab node s :=
    let (answer, s) := s.call (d.borderQuad tab node)
    (.now (answer.toOption.bind extent?), s)
  capture tab request s :=
    let (answer, s) := s.call (d.captureScreenshot tab request clipScale)
    (reply answer, s)
  closeTab tab s :=
    let (answer, s) := s.call (d.closeTarget tab)
    (reply answer, { s with listening := s.listening.filter (· != tab) })

end Chromium
end MermaidPress
