/-
A browser that is none: it answers every call at once, in the way its behavior says, and
counts what it is asked. It stands in where a render is to be tried without a browser.
-/
import MermaidPress.Render.Session

namespace MermaidPress.Dummy

/-- How the script of a page ends. -/
inductive Outcome
  | complete
  | error (text : Text)
  /-- It never ends. -/
  | hang
  deriving DecidableEq, Repr

/-- The image that captures give where no other is named. -/
def defaultImage : ByteArray :=
  ⟨#[0x89, 0x50, 0x4E, 0x47, 0x0D, 0x0A, 0x1A, 0x0A, 0x6D, 0x6F, 0x63, 0x6B]⟩

/-- How a dummy behaves. -/
structure Behavior where
  /-- Every launch fails with this text. -/
  launchError : Option Text := none
  outcome : Outcome := .complete
  /-- Whether the container shows an image in the end. -/
  processed : Bool := true
  /-- Whether there is a container at all. -/
  element : Bool := true
  bounds : Option Box := some { x := 20.0, y := 20.0, width := 400.0, height := 300.0 }
  image : ByteArray := defaultImage
  /-- Pages that hold this text fail. -/
  failOn : Option Text := none

/-- What a dummy was asked, over all its browsers and tabs. -/
structure Tally where
  launches : Nat := 0
  browsersClosed : Nat := 0
  tabsOpened : Nat := 0
  tabsClosed : Nat := 0
  diagnosticsForwarded : Nat := 0
  viewports : List Viewport := []
  pages : List Text := []
  captures : List CaptureRequest := []

/-- A dummy: its behavior, its tally and the page that each tab shows. -/
structure State where
  behavior : Behavior := {}
  tally : Tally := {}
  shown : List Text := []

/-- How the script of a page ends for a behavior. -/
def Behavior.outcomeOn (behavior : Behavior) (page : Text) : Outcome :=
  match behavior.failOn with
  | some needle =>
    if Text.includes needle page then .error ("Parse error near ".toList ++ needle)
    else behavior.outcome
  | none => behavior.outcome

/-- The value of an expression on a page; expressions that no render asks for have none. -/
def Behavior.valueOf (behavior : Behavior) (page expression : Text) : Json :=
  let outcome := behavior.outcomeOn page
  if expression = Page.documentReady then .bool true
  else if expression = Page.renderSettled then .bool (outcome ≠ .hang)
  else if expression = Page.renderFailure then
    match outcome with
    | .error text => .string text
    | _ => .null
  else if expression = Page.diagramProcessed then .bool behavior.processed
  else .null

/-- The dummy with a changed tally. -/
def State.count (s : State) (change : Tally → Tally) : State := { s with tally := change s.tally }

/-- The dummy as a backend. A tab is known by its number. -/
def backend : Backend where
  State := State
  Browser := Unit
  Tab := Nat
  Element := Unit
  launch s :=
    match s.behavior.launchError with
    | some text => ({ result := .error (.launch text) }, s)
    | none => (.now (), s.count fun t => { t with launches := t.launches + 1 })
  openTab _ s :=
    let s := s.count fun t => { t with tabsOpened := t.tabsOpened + 1 }
    (.now s.shown.length, { s with shown := s.shown ++ [[]] })
  closeBrowser _ s := (.now (), s.count fun t => { t with browsersClosed := t.browsersClosed + 1 })
  forwardDiagnostics _ s :=
    (.now (), s.count fun t => { t with diagnosticsForwarded := t.diagnosticsForwarded + 1 })
  setViewport _ viewport s :=
    (.now (), s.count fun t => { t with viewports := t.viewports ++ [viewport] })
  setContent tab page s :=
    let s := s.count fun t => { t with pages := t.pages ++ [page] }
    (.now (), { s with shown := s.shown.set tab page })
  evaluate tab expression s :=
    (.now (s.behavior.valueOf (s.shown[tab]?.getD []) expression), s)
  findElement _ selector s :=
    (.now (if selector = Page.diagramSelector && s.behavior.element then some () else none), s)
  boundingBox _ _ s := (.now s.behavior.bounds, s)
  capture _ request s :=
    (.now s.behavior.image, s.count fun t => { t with captures := t.captures ++ [request] })
  closeTab _ s := (.now (), s.count fun t => { t with tabsClosed := t.tabsClosed + 1 })

end MermaidPress.Dummy
