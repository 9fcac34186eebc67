/-
Where blocks stand in a document. `Block.Fits` is what replacing asks of one block, given
where the block before it ends; `FitAll` asks it of every block of a list. Both follow a
list of blocks from its front: behind the first block, the rest is asked from where that
block ends.
-/
import MermaidPress.Document.Replacement
import MermaidPress.Proofs.Text.Slice

namespace MermaidPress.Document

open Text

/-- Where the block before the one with number `i` ends; for the first block, `cursor`. -/
def stopBefore (cursor : Nat) (blocks : List Block) : Nat → Nat
  | 0 => cursor
  | i + 1 => (blocks[i]?.map Block.stop).getD cursor

@[simp] theorem stopBefore_zero (cursor : Nat) (blocks : List Block) :
    stopBefore cursor blocks 0 = cursor := rfl

theorem stopBefore_cons (cursor : Nat) (block : Block) (blocks : List Block) {i : Nat}
    (h : i ≤ blocks.length) :
    stopBefore cursor (block :: blocks) (i + 1) = stopBefore block.stop blocks i := by
  cases i with
  | zero => rfl
  | succ i =>
    have hi : i < blocks.length := h
    simp [stopBefore, hi]

/-- The block begins no earlier than `cursor`, and the document has its text at its span. -/
structure Block.Fits (document : Text) (cursor : Nat) (block : Block) : Prop where
  ordered : cursor ≤ block.start
  held : slice? document block.start block.stop = some block.full

instance (document : Text) (cursor : Nat) (block : Block) :
    Decidable (block.Fits document cursor) :=
  decidable_of_iff (cursor ≤ block.start ∧ slice? document block.start block.stop = some block.full)
    ⟨fun h => ⟨h.1, h.2⟩, fun h => ⟨h.ordered, h.held⟩⟩

/-- A block that `Fits` behind a front part is a part of the rest, with a gap before it. -/
theorem Block.Fits.exists_gap {front rest : Text} {block : Block}
    (h : block.Fits (front ++ rest) (byteLength front)) :
    ∃ gap behind, rest = gap ++ block.full ++ behind ∧
      block.start = byteLength (front ++ gap) ∧
      block.stop = byteLength (front ++ gap ++ block.full) := by
  obtain ⟨before, behind, hd, hstart, hstop⟩ := slice?_eq_some_iff.1 h.held
  obtain ⟨gap, rfl, rfl⟩ := append_eq_append_of_le (v := block.full ++ behind)
    (by rw [hd, List.append_assoc]) (hstart ▸ h.ordered)
  exact ⟨gap, behind, by rw [List.append_assoc], hstart.symm, by rw [← hstop, ← hstart, ← byteLength_append]⟩

/-- Every block `Fits` behind the one before it, the first behind `cursor`. -/
def FitAll (document : Text) (cursor : Nat) (blocks : List Block) : Prop :=
  ∀ i (block : Block), blocks[i]? = some block → block.Fits document (stopBefore cursor blocks i)

theorem forall_stopBefore_cons {P : Block → Nat → Prop} {cursor : Nat} {block : Block}
    {blocks : List Block} :
    (∀ i b, (block :: blocks)[i]? = some b → P b (stopBefore cursor (block :: blocks) i)) ↔
      P block cursor ∧ ∀ i b, blocks[i]? = some b → P b (stopBefore block.stop blocks i) := by
  constructor
  · intro h
    refine ⟨h 0 block rfl, fun i b hb => ?_⟩
    have hi : i < blocks.length := (List.getElem?_eq_some_iff.1 hb).1
    rw [← stopBefore_cons cursor block blocks (Nat.le_of_lt hi)]
    exact h (i + 1) b (by simpa using hb)
  · rintro ⟨h, hs⟩ (_ | i) b hb
    · obtain rfl : block = b := Option.some.inj hb
      exact h
    · rw [List.getElem?_cons_succ] at hb
      have hi : i < blocks.length := (List.getElem?_eq_some_iff.1 hb).1
      rw [stopBefore_cons cursor block blocks (Nat.le_of_lt hi)]
      exact hs i b hb

@[simp] theorem fitAll_nil (document : Text) (cursor : Nat) : FitAll document cursor [] :=
  fun _ _ h => by simp at h

theorem fitAll_cons {document : Text} {cursor : Nat} {block : Block} {blocks : List Block} :
    FitAll document cursor (block :: blocks) ↔
      block.Fits document cursor ∧ FitAll document block.stop blocks :=
  forall_stopBefore_cons (P := fun b n => b.Fits document n)

/-- The text outside of the blocks: before the first, between every two and behind the last. -/
def outsideFrom (document : Text) (cursor : Nat) : List Block → List (Option Text)
  | [] => [slice? document cursor (byteLength document)]
  | block :: blocks =>
    slice? document cursor block.start :: outsideFrom document block.stop blocks

end MermaidPress.Document
