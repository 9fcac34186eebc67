/-
The way from one directory to another place, as a reference in a document is written: as
many `..` as lead up to the last directory that both share, then the names that lead down.
-/
import MermaidPress.Path.Basic

namespace MermaidPress.Path

/-- How many components two paths share from the front on. -/
def sharedDepth : List Component → List Component → Nat
  | a :: as, b :: bs => if a = b then sharedDepth as bs + 1 else 0
  | _, _ => 0

/-- The texts joined by strokes. -/
def joinWith (separator : Char) : List Text → Text
  | [] => []
  | [piece] => piece
  | piece :: rest => piece ++ separator :: joinWith separator rest

/-- The path as seen from the directory `current`, where the empty path is that directory. -/
def absolute (current path : Path) : Path :=
  if path.isEmpty then current else (absolute? current path).getD path

/-- The reference by which a document points at a target. Both are taken as seen from
the directory `current`. Without a common front the target itself is the reference, with
strokes in place of backward ones. -/
def relativeReference (current document target : Path) : Text :=
  let source := normalize (absolute current ((parent? document).getD []))
  let goal := normalize (absolute current target)
  let sourceParts := components source
  let goalParts := components goal
  if sourceParts.head? ≠ goalParts.head? then goal.map fun c => if c = '\\' then '/' else c
  else
    let shared := sharedDepth sourceParts goalParts
    let ups := List.replicate (sourceParts.length - shared) (Component.text .parent)
    let downs := (goalParts.drop shared).map Component.text
    joinWith '/' (ups ++ downs)

end MermaidPress.Path
