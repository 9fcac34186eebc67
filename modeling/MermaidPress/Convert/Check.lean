/-
Checking the diagrams of a document, and repairing them where that is asked for.
-/
import MermaidPress.Convert.Basic

namespace MermaidPress

open Document (Block)

/-- One diagram after its check: the findings, if there are any, and the fence that takes
its place. -/
structure CheckedBlock where
  findings : Option BlockFindings
  replacement : Text
  /-- Whether the fence differs from the one in the document. -/
  changed : Bool
  deriving DecidableEq, Repr

/-- Checks the diagram with a number and, with `autoFix`, repairs it. -/
def checkBlock (autoFix : Bool) (index : Nat) (block : Block) : CheckedBlock :=
  let issues := Diagram.check block.content
  let repaired : Diagram.Repaired :=
    if autoFix then Diagram.repair block.content else { source := block.content, changes := [] }
  let replacement := if repaired.isChanged then block.withContent repaired.source else block.full
  {
    findings :=
      if issues.isEmpty && repaired.changes.isEmpty then none
      else some { index, issues, fixes := repaired.changes }
    replacement
    changed := replacement ≠ block.full }

/-- Checks the diagrams of a document, numbered from `index` on. -/
def checkBlocks (autoFix : Bool) (index : Nat) : List Block → List CheckedBlock
  | [] => []
  | block :: rest => checkBlock autoFix index block :: checkBlocks autoFix (index + 1) rest

end MermaidPress
