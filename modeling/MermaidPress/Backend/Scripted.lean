/-
A browser that follows a script: for each browser that is started and each tab that is
opened, in turn, the script says how long every call takes and whether it fails. Where the
script is too short its last entry counts again.
-/
import MermaidPress.Render.Session

namespace MermaidPress.Scripted

/-- How long a call takes, and the text it fails with, if it fails. -/
structure Response where
  delay : Duration := ⟨0⟩
  failure : Option Text := none

/-- The reply of a call that gives `a` where it does not fail. -/
def Response.giving {α : Type} (response : Response) (a : α) : Reply α where
  delay := response.delay
  result := match response.failure with
    | some text => .error (.browser text)
    | none => .ok a

/-- The answer to one evaluation. -/
structure Look where
  response : Response := {}
  value : Json := .null

/-- What an evaluation asks about. -/
inductive Topic
  | ready
  | complete
  | failure
  | processed
  deriving DecidableEq, Repr

/-- The word by which an expression is known to ask about a topic. -/
def Topic.word : Topic → Text
  | ready => "readyState".toList
  | complete => "renderComplete".toList
  | failure => "renderError".toList
  | processed => "data-processed".toList

/-- The topic of an expression: the first whose word it holds. -/
def Topic.of? (expression : Text) : Option Topic :=
  [ready, complete, failure, processed].find? fun topic => Text.includes topic.word expression

/-- The value where the script says nothing about a topic. -/
def Topic.usual : Topic → Json
  | failure => .null
  | _ => .bool true

/-- The script of a tab. -/
structure TabScript where
  openTab : Response := {}
  viewport : Response := {}
  diagnostics : Response := {}
  content : Response := {}
  element : Response := {}
  elementMissing : Bool := false
  box : Response := {}
  bounds : Option Box := some { x := 20.0, y := 20.0, width := 400.0, height := 300.0 }
  capture : Response := {}
  image : ByteArray := "IMG".toUTF8
  close : Response := {}
  /-- The answers about each topic, in turn. -/
  looks : Topic → List Look := fun _ => []

/-- The script of a browser. -/
structure BrowserScript where
  launchFailure : Option Text := none
  close : Response := {}

/-- A script. -/
structure Script where
  browsers : List BrowserScript := []
  tabs : List TabScript := []

/-- The entry for the `n`-th turn, counted from zero: the last one where there are fewer. -/
def turn? {α : Type} (entries : List α) (n : Nat) : Option α :=
  entries[min n (entries.length - 1)]?

/-- A scripted browser: what was started and opened so far, and how often each tab was
asked about each topic. -/
structure State where
  script : Script := {}
  launches : Nat := 0
  asked : List (Topic → Nat) := []

/-- The script of a tab, known by its number. -/
def State.tab (s : State) (tab : Nat) : TabScript := (turn? s.script.tabs tab).getD {}

/-- The script of a browser, known by its number. -/
def State.browser (s : State) (browser : Nat) : BrowserScript :=
  (turn? s.script.browsers browser).getD {}

/-- The next answer to an evaluation on a tab. -/
def State.look (s : State) (tab : Nat) (expression : Text) : Look × State :=
  match Topic.of? expression with
  | none => ({}, s)
  | some topic =>
    let count := ((s.asked[tab]?).getD fun _ => 0) topic
    let look := (turn? ((s.tab tab).looks topic) count).getD { value := topic.usual }
    let more (counts : Topic → Nat) : Topic → Nat :=
      fun other => if other = topic then count + 1 else counts other
    (look, { s with asked := s.asked.modify tab more })

/-- The script as a backend. Browsers and tabs are known by their numbers. -/
def backend : Backend where
  State := State
  Browser := Nat
  Tab := Nat
  Element := Unit
  launch s :=
    let next := { s with launches := s.launches + 1 }
    match (s.browser s.launches).launchFailure with
    | some text => ({ result := .error (.launch text) }, next)
    | none => (.now s.launches, next)
  openTab _ s :=
    let tab := s.asked.length
    ((s.tab tab).openTab.giving tab, { s with asked := s.asked ++ [fun _ => 0] })
  closeBrowser browser s := ((s.browser browser).close.giving (), s)
  forwardDiagnostics tab s := ((s.tab tab).diagnostics.giving (), s)
  setViewport tab _ s := ((s.tab tab).viewport.giving (), s)
  setContent tab _ s := ((s.tab tab).content.giving (), s)
  evaluate tab expression s :=
    let (look, next) := s.look tab expression
    (look.response.giving look.value, next)
  findElement tab _ s :=
    ((s.tab tab).element.giving (if (s.tab tab).elementMissing then none else some ()), s)
  boundingBox tab _ s := ((s.tab tab).box.giving (s.tab tab).bounds, s)
  capture tab _ s := ((s.tab tab).capture.giving (s.tab tab).image, s)
  closeTab tab s := ((s.tab tab).close.giving (), s)

end MermaidPress.Scripted
