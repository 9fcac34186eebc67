/-
What can be wrong with a TOML document, and how a fault is reported: with its line, its
column and a mark under the place.
-/
import MermaidPress.Text.Basic

namespace MermaidPress.Toml

/-- What is wrong at a place of a document. -/
inductive Fault
  | keyWithoutValue
  | missingKey
  | invalidKey
  | longKey
  | unquotedText
  | invalidNumber
  | invalidMoment
  | unclosedTable
  | unclosedTables
  | unclosedArray
  | unclosedInlineTable
  | unclosedString
  | controlCharacter
  | invalidEscape
  | trailingText
  | duplicateKey
  /-- A value that keys cannot add to. -/
  | closedValue
  | tooDeep
  deriving DecidableEq, Repr

/-- The wording of a fault. -/
def Fault.message : Fault → String
  | keyWithoutValue => "key with no value, expected \x60=\x60"
  | missingKey => "missing key, expected key"
  | invalidKey => "invalid unquoted key, expected letters, numbers, \x60-\x60, \x60_\x60"
  | longKey => "keys cannot be multi-line strings"
  | unquotedText => "string values must be quoted, expected literal string"
  | invalidNumber => "invalid number, expected digits"
  | invalidMoment => "invalid datetime"
  | unclosedTable => "unclosed table, expected \x60]\x60"
  | unclosedTables => "unclosed array of tables, expected \x60]]\x60"
  | unclosedArray => "unclosed array, expected \x60]\x60"
  | unclosedInlineTable => "unclosed inline table, expected \x60\x7d\x60"
  | unclosedString => "unclosed string, expected a quote"
  | controlCharacter => "invalid character, expected printable characters"
  | invalidEscape => "invalid escape sequence"
  | trailingText => "unexpected key or value, expected newline, \x60#\x60"
  | duplicateKey => "duplicate key"
  | closedValue => "cannot extend value with a dotted key"
  | tooDeep => "cannot recurse further; max recursion depth met"

/-- A fault with its place, told by the number of characters from there to the end. -/
structure Stop where
  fault : Fault
  left : Nat
  deriving DecidableEq, Repr

/-- A fault in a document: the number of its line and of its column, from one on, and the
text of the line. -/
structure Problem where
  fault : Fault
  line : Nat
  column : Nat
  content : Text
  deriving DecidableEq, Repr

/-- The fault at a place of a document. -/
def Stop.locate (stop : Stop) (document : Text) : Problem :=
  let offset := document.length - stop.left
  let before := document.take offset
  let start := (before.reverse.takeWhile (· ≠ '\n')).length
  {
    fault := stop.fault
    line := before.count '\n' + 1
    column := start + 1
    content := (document.drop (offset - start)).takeWhile (· ≠ '\n') }

/-- The report of a fault: where it is, the line with a mark under the place, and what is
wrong. -/
def Problem.message (p : Problem) : String :=
  let number := toString p.line
  let margin := String.ofList (List.replicate (number.length + 1) ' ')
  let mark := String.ofList (List.replicate p.column ' ')
  s!"TOML parse error at line {p.line}, column {p.column}\n" ++
    margin ++ "|\n" ++
    number ++ " | " ++ String.ofList p.content ++ "\n" ++
    margin ++ "|" ++ mark ++ "^\n" ++
    p.fault.message ++ "\n"

end MermaidPress.Toml
