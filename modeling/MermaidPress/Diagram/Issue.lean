/-
What is known to trouble the parser of diagrams. `check` looks for five patterns; each of
them counts once, and the issues always come in the same order.
-/
import MermaidPress.Diagram.Label

namespace MermaidPress.Diagram

open Text

/-- A pattern that is known to cause parsing issues. -/
inductive Issue
  | mathInParentheses
  | hyphenInLabelParentheses
  | malformedArrow
  | unevenArrowSpacing
  | unquotedSubgraph
  deriving DecidableEq, Repr

/-- The wording of an issue. -/
def Issue.message : Issue → String
  | mathInParentheses => "Mathematical expressions in parentheses may cause parsing issues"
  | hyphenInLabelParentheses => "Parentheses with hyphens in node labels may cause parsing issues"
  | malformedArrow => "Malformed arrow syntax detected"
  | unevenArrowSpacing => "Inconsistent spacing around arrows"
  | unquotedSubgraph => "Subgraph labels should be quoted"

/-- A group in parentheses that begins here and holds an operator. -/
def mathBegins (t : Text) : Bool :=
  match group? t with
  | some (inner, _) => inner.any isOperator
  | none => false

/-- A group in parentheses that begins here, holds a hyphen and has a closing bracket behind
it on its last line. -/
def hyphenGroup? (t : Text) : Option Unit :=
  match group? t with
  | some (inner, rest) =>
    if inner.contains '-' && (throughLine? ']' rest).isSome then some () else none
  | none => none

/-- A label that begins here and holds a group with a hyphen. -/
def hyphenLabelBegins : Text → Bool
  | '[' :: t => (alongLine (fun _ s => hyphenGroup? s) '[' t).isSome
  | _ => false

/-- An arrow that begins here and has a second head. -/
def malformedArrowBegins (t : Text) : Bool := (afterDoubledHead? t).isSome

/-- An arrow that begins here and is followed by no blank or by more than one. -/
def unevenArrowBegins (t : Text) : Bool :=
  match afterArrow? t with
  | none | some [] => false
  | some (c :: rest) => !isBlank c || rest.head?.any isBlank

/-- A subgraph that begins here and whose name is not quoted. -/
def unquotedSubgraphBegins (t : Text) : Bool :=
  match after? "subgraph".toList t with
  | none => false
  | some rest => (rest.head?.any isBlank) && (trimLeft rest).head?.any (· != '"')

/-- The sign that an issue begins at the head of a text. -/
def Issue.beginsAt : Issue → Text → Bool
  | mathInParentheses => mathBegins
  | hyphenInLabelParentheses => hyphenLabelBegins
  | malformedArrow => malformedArrowBegins
  | unevenArrowSpacing => unevenArrowBegins
  | unquotedSubgraph => unquotedSubgraphBegins

/-- All issues, in the order in which they are reported. -/
def Issue.all : List Issue :=
  [mathInParentheses, hyphenInLabelParentheses, malformedArrow, unevenArrowSpacing,
    unquotedSubgraph]

/-- The issues of a diagram source: those that begin somewhere in it. -/
def check (source : Text) : List Issue :=
  Issue.all.filter fun issue => (ends source).any issue.beginsAt

/-- Each issue is reported at most once and in the fixed order. -/
theorem check_sublist (source : Text) : (check source).Sublist Issue.all :=
  List.filter_sublist

theorem mem_check {source : Text} {issue : Issue} :
    issue ∈ check source ↔ ∃ t ∈ ends source, issue.beginsAt t = true := by
  have : issue ∈ Issue.all := by cases issue <;> decide
  simp [check, this]

end MermaidPress.Diagram
