/-
A stand-in for a browser behind the DevTools protocol. A scenario says, for each page that
one process opens in turn, which calls are refused and what the others answer; the stand-in
writes down every call that it gets. A new process begins the scenario again.
-/
import MermaidPress.Backend.DevTools
import MermaidPress.Backend.Scripted

namespace MermaidPress.StandIn

open DevTools (Failure RemoteObject PageEvent)
open Scripted (Topic turn?)

/-- The text with which a call is refused, if it is. -/
abbrev Refusal := Option Text

/-- The answer to an evaluation: without a value it is undefined. -/
structure Look where
  refusal : Refusal := none
  value : Option Json := none

/-- The scenario of a page. -/
structure PageScenario where
  newPage : Refusal := none
  viewport : Refusal := none
  content : Refusal := none
  /-- What the page says when it is shown, even where showing it is refused. -/
  events : List PageEvent := []
  document : Refusal := none
  element : Refusal := none
  /-- How many elements match. -/
  count : Nat := 1
  describe : Refusal := none
  resolve : Refusal := none
  /-- Whether nodes stand for no object. -/
  unresolvable : Bool := false
  box : Refusal := none
  quad : List (Float × Float) := [(20.0, 20.0), (420.0, 20.0), (420.0, 320.0), (20.0, 320.0)]
  capture : Refusal := none
  image : ByteArray := "IMG".toUTF8
  close : Refusal := none
  /-- The answers about each topic, in turn. -/
  looks : Topic → List Look := fun _ => []

/-- A call that the stand-in got. -/
inductive Received
  | launch (flags : List Text)
  | newPage (address : Text)
  | viewport (viewport : Viewport) (mobile : Bool)
  | content (bytes : Nat)
  | evaluate (expression : Text)
  | find (selector : Text)
  | box (index : Nat)
  | capture (request : CaptureRequest) (scale : Float)
  | closePage
  | closeBrowser

/-- A stand-in: the scenario, the pages of the present process with how often each was asked
about each topic, and all calls so far. -/
structure State where
  scenario : List PageScenario := []
  asked : List (Topic → Nat) := []
  received : List Received := []

/-- The number of the first node; the others follow. -/
def firstNode : Nat := 10

/-- The code with which calls are refused. -/
def refusalCode : Int := -32000

/-- The answer of a call that gives `a` where it is not refused. -/
def answer {α : Type} (refusal : Refusal) (a : α) : Except Failure α :=
  match refusal with
  | some text => .error (.refused refusalCode text)
  | none => .ok a

/-- The scenario of a page, known by its number. -/
def State.page (s : State) (page : Nat) : PageScenario := (turn? s.scenario page).getD {}

/-- Writes down a call. -/
def State.note (s : State) (call : Received) : State := { s with received := s.received ++ [call] }

/-- The next answer to an evaluation on a page. -/
def State.look (s : State) (page : Nat) (expression : Text) : Look × State :=
  match Topic.of? expression with
  | none => ({}, s)
  | some topic =>
    let count := ((s.asked[page]?).getD fun _ => 0) topic
    let look := (turn? ((s.page page).looks topic) count).getD { value := some topic.usual }
    let more (counts : Topic → Nat) : Topic → Nat :=
      fun other => if other = topic then count + 1 else counts other
    (look, { s with asked := s.asked.modify page more })

/-- A value as the protocol gives it: null counts as none. -/
def remoteObject : Option Json → RemoteObject
  | some .null | none => {}
  | some value => { value := some value }

/-- The stand-in behind the protocol. -/
def devTools : DevTools where
  State := State
  start flags s := { s with asked := [] }.note (.launch flags)
  createTarget address s :=
    let page := s.asked.length
    (answer (s.page page).newPage page,
      { s with asked := s.asked ++ [fun _ => 0] }.note (.newPage address))
  closeBrowser s := s.note .closeBrowser
  setDeviceMetrics page viewport mobile s :=
    (answer (s.page page).viewport (), s.note (.viewport viewport mobile))
  setDocument page document s :=
    ((answer (s.page page).content (), (s.page page).events),
      s.note (.content (Text.byteLength document)))
  evaluate page expression s :=
    let (look, next) := s.look page expression
    (answer look.refusal (remoteObject look.value), next.note (.evaluate expression))
  querySelectorAll page selector s :=
    match (s.page page).document with
    | some text => (answer (some text) [], s)
    | none =>
      (answer (s.page page).element ((List.range (s.page page).count).map (· + firstNode)),
        s.note (.find selector))
  describeNode page _ s := (answer (s.page page).describe (), s)
  resolveNode page node s :=
    if (s.page page).resolve.isNone && (s.page page).unresolvable then (.error (.noObject node), s)
    else (answer (s.page page).resolve (), s)
  borderQuad page node s :=
    (answer (s.page page).box (s.page page).quad, s.note (.box (node - firstNode)))
  captureScreenshot page request scale s :=
    (answer (s.page page).capture (s.page page).image, s.note (.capture request scale))
  closeTarget page s := (answer (s.page page).close (), s.note .closePage)

end MermaidPress.StandIn
