/-
Putting replacements in the place of blocks. The blocks are checked against the document
they are applied to, each at its own offsets; the replacements go into one growing copy, in
which every block has moved by what the replacements before it added or took away.

`splice` says the result in one sentence: the text between the blocks, with the
replacements between the pieces.
-/
import MermaidPress.Document.Block

namespace MermaidPress.Document

open Text

/-- Why replacements cannot be put in the place of blocks. -/
inductive ReplacementError
  /-- Not one replacement for each block. -/
  | countMismatch (blocks replacements : Nat)
  /-- The span of a block does not hold the block's text. -/
  | staleBlock (index start stop : Nat)
  /-- A block begins before the end of the one before it. -/
  | outOfOrder (index : Nat)
  /-- The moved place of a block is none of the copy's. -/
  | lostPlace (index : Nat)
  deriving DecidableEq, Repr

/-- The wording of an error. -/
def ReplacementError.message : ReplacementError → String
  | countMismatch blocks replacements => s!"{blocks} blocks but {replacements} replacements"
  | staleBlock index start stop => s!"block {index} does not match the document at {start}..{stop}"
  | outOfOrder index => s!"block {index} overlaps or precedes the previous block"
  | lostPlace index => s!"block {index} lost its place"

/-- Where the replacing stands: the copy so far, by how much the next block has moved, and where
the last block ended in the document. -/
structure Progress where
  output : Text
  drift : Int := 0
  previousStop : Nat := 0

/-- The place to which `position` has moved. -/
def Progress.moved (progress : Progress) (position : Nat) : Nat :=
  (position + progress.drift).toNat

/-- Puts one replacement in the place of one block. -/
def Progress.replace (document : Text) (progress : Progress) (index : Nat) (block : Block)
    (replacement : Text) : Except ReplacementError Progress :=
  if block.start < progress.previousStop then .error (.outOfOrder index)
  else if slice? document block.start block.stop ≠ some block.full then
    .error (.staleBlock index block.start block.stop)
  else
    let start := progress.moved block.start
    match replaceSlice? progress.output start (start + block.length) replacement with
    | none => .error (.lostPlace index)
    | some output =>
      .ok {
        output
        drift := progress.drift + (byteLength replacement - byteLength block.full : Int)
        previousStop := block.stop }

/-- Puts the replacements in the place of the blocks from the one with number `index` on. -/
def Progress.replaceAll (document : Text) (progress : Progress) (index : Nat) :
    List (Block × Text) → Except ReplacementError Progress
  | [] => .ok progress
  | (block, replacement) :: rest => do
    let progress ← progress.replace document index block replacement
    progress.replaceAll document (index + 1) rest

/-- The document with each block replaced by the replacement of the same number. -/
def replaceBlocks (document : Text) (blocks : List Block) (replacements : List Text) :
    Except ReplacementError Text :=
  if blocks.length ≠ replacements.length then
    .error (.countMismatch blocks.length replacements.length)
  else do
    let start : Progress := { output := document }
    let progress ← start.replaceAll document 0 (blocks.zip replacements)
    .ok progress.output

/-- The text from byte `cursor` on, where the spans are replaced. -/
def spliceFrom (document : Text) (cursor : Nat) : List (Block × Text) → Text
  | [] => (slice? document cursor (byteLength document)).getD []
  | (block, replacement) :: rest =>
    (slice? document cursor block.start).getD [] ++ replacement ++
      spliceFrom document block.stop rest

/-- The text between the blocks with the replacements between the pieces. -/
def splice (document : Text) (blocks : List Block) (replacements : List Text) : Text :=
  spliceFrom document 0 (blocks.zip replacements)

end MermaidPress.Document
