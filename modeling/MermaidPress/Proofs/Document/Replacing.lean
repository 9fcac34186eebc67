/-
`replaceBlocks`, in one growing copy, gives the `splice`. While blocks fit, the copy is what was
written so far followed by the document's text behind the last block, and the drift is the
difference between the two fronts; so the moved place of the next block is never off the copy and
is the block's own text. The first block that does not fit ends the replacing with its fault.
-/
import Mathlib.Data.Nat.Find
import MermaidPress.Proofs.Document.Placement

namespace MermaidPress.Document

open Text

/-! ## One step -/

/-- Where the replacing stands: `done` is the document up to the last block's end, and `written`
stands for it in the copy. -/
structure Progress.Stands (document : Text) (progress : Progress) (done rest written : Text) :
    Prop where
  document_eq : document = done ++ rest
  output_eq : progress.output = written ++ rest
  previousStop_eq : byteLength done = progress.previousStop
  drift_eq : (byteLength written : Int) = progress.previousStop + progress.drift

theorem Progress.stands_start (document : Text) :
    Progress.Stands document { output := document } [] document [] :=
  ⟨rfl, rfl, rfl, rfl⟩

namespace Progress.Stands

variable {document done rest written : Text} {progress : Progress} {block : Block}

theorem exists_gap (h : progress.Stands document done rest written)
    (hb : block.Fits document progress.previousStop) :
    ∃ gap behind, rest = gap ++ block.full ++ behind ∧
      block.start = progress.previousStop + byteLength gap ∧
      block.stop = block.start + byteLength block.full := by
  rw [h.document_eq, ← h.previousStop_eq] at hb
  obtain ⟨gap, behind, hrest, hstart, hstop⟩ := hb.exists_gap
  refine ⟨gap, behind, hrest, ?_, ?_⟩
  · rw [hstart, byteLength_append, h.previousStop_eq]
  · rw [hstop, hstart, ← byteLength_append]

theorem length_eq (hb : block.stop = block.start + byteLength block.full) :
    block.length = byteLength block.full := by
  rw [Block.length, hb]
  omega

/-- `moved` takes the start of a block behind what is written and the gap before the block. -/
theorem moved_eq_byteLength (h : progress.Stands document done rest written) {gap : Text}
    (hstart : block.start = progress.previousStop + byteLength gap) :
    progress.moved block.start = byteLength (written ++ gap) := by
  have := h.drift_eq
  rw [Progress.moved, hstart, byteLength_append]
  omega

theorem drift_eq_sub (h : progress.Stands document done rest written) :
    progress.drift = byteLength progress.output - byteLength document := by
  have := h.drift_eq
  have := h.previousStop_eq
  rw [h.output_eq, h.document_eq, byteLength_append, byteLength_append]
  omega

/-- The `moved` place of a block that fits lies between the ends of the copy, is reached without a
cut at zero, and holds the block's text. -/
theorem moved_eq (h : progress.Stands document done rest written)
    (hb : block.Fits document progress.previousStop) :
    (progress.moved block.start : Int) = block.start + progress.drift ∧
      progress.moved block.start + block.length ≤ byteLength progress.output ∧
      slice? progress.output (progress.moved block.start)
        (progress.moved block.start + block.length) = some block.full := by
  obtain ⟨gap, behind, rfl, hstart, hstop⟩ := h.exists_gap hb
  have hmoved := h.moved_eq_byteLength hstart
  have hslice : slice? progress.output (progress.moved block.start)
      (progress.moved block.start + block.length) = some block.full := by
    rw [hmoved, length_eq hstop, h.output_eq]
    simpa using slice?_append (written ++ gap) block.full behind
  refine ⟨?_, (le_of_slice? hslice).2, hslice⟩
  have := h.drift_eq
  rw [hmoved, hstart, byteLength_append]
  push_cast
  omega

/-- One `Progress.replace`: the gap and the replacement are written, and the block is done. -/
theorem replace (h : progress.Stands document done rest written)
    (hb : block.Fits document progress.previousStop) (index : Nat) (replacement : Text) :
    ∃ progress' done' rest' gap, progress.replace document index block replacement = .ok progress' ∧
      progress'.Stands document done' rest' (written ++ gap ++ replacement) ∧
      progress'.previousStop = block.stop ∧
      slice? document progress.previousStop block.start = some gap := by
  obtain ⟨gap, behind, hrest, hstart, hstop⟩ := h.exists_gap hb
  have hdrift := h.drift_eq
  have hdone := h.previousStop_eq
  have hplace : replaceSlice? progress.output (progress.moved block.start)
      (progress.moved block.start + block.length) replacement =
        some (written ++ gap ++ replacement ++ behind) := by
    rw [h.moved_eq_byteLength hstart, length_eq hstop, h.output_eq, hrest]
    simpa using replaceSlice?_append (written ++ gap) block.full behind replacement
  refine ⟨{
    output := written ++ gap ++ replacement ++ behind
    drift := progress.drift + (byteLength replacement - byteLength block.full : Int)
    previousStop := block.stop }, done ++ gap ++ block.full, behind, gap, ?_, ⟨?_, rfl, ?_, ?_⟩, rfl, ?_⟩
  · rw [Progress.replace, if_neg (Nat.not_lt.2 hb.ordered), if_neg (not_not_intro hb.held)]
    simp only [hplace]
  · rw [h.document_eq, hrest]
    simp
  · simp only [byteLength_append]
    omega
  · simp only [byteLength_append]
    push_cast
    omega
  · rw [h.document_eq, hrest, hstart, ← hdone]
    simpa using slice?_append done gap (block.full ++ behind)

end Progress.Stands

/-! ## The run -/

/-- Where all blocks fit, `replaceAll` writes their splice. -/
theorem Progress.Stands.replaceAll {document : Text} :
    ∀ {pairs : List (Block × Text)} {progress : Progress} {done rest written : Text},
    progress.Stands document done rest written →
    FitAll document progress.previousStop (pairs.map Prod.fst) → ∀ index,
    ∃ progress' done' rest' written', progress.replaceAll document index pairs = .ok progress' ∧
      progress'.Stands document done' rest' written' ∧
      progress'.previousStop = stopBefore progress.previousStop (pairs.map Prod.fst) pairs.length ∧
      written' ++ rest' = written ++ spliceFrom document progress.previousStop pairs
  | [], progress, done, rest, written, h, _, index => by
    refine ⟨progress, done, rest, written, rfl, h, rfl, ?_⟩
    rw [spliceFrom, ← h.previousStop_eq, h.document_eq, slice?_append_right]
    rfl
  | (block, replacement) :: pairs, progress, done, rest, written, h, hfit, index => by
    rw [List.map_cons, fitAll_cons] at hfit
    obtain ⟨next, done₁, rest₁, gap, hnext, h₁, hstop, hgap⟩ := h.replace hfit.1 index replacement
    obtain ⟨last, done₂, rest₂, written₂, hlast, h₂, hstop₂, hsplice⟩ :=
      h₁.replaceAll (hstop.symm ▸ hfit.2) (index + 1)
    refine ⟨last, done₂, rest₂, written₂, ?_, h₂, ?_, ?_⟩
    · rw [Progress.replaceAll, hnext]
      exact hlast
    · rw [hstop₂, hstop, List.map_cons, List.length_cons, stopBefore_cons _ _ _ (by simp)]
    · rw [hsplice, hstop, spliceFrom, hgap]
      simp

theorem Progress.replaceAll_append (document : Text) (index : Nat) (progress : Progress)
    (front back : List (Block × Text)) :
    progress.replaceAll document index (front ++ back) =
      (progress.replaceAll document index front).bind fun progress =>
        progress.replaceAll document (index + front.length) back := by
  induction front generalizing progress index with
  | nil => rfl
  | cons pair front ih =>
    obtain ⟨block, replacement⟩ := pair
    rw [List.cons_append, Progress.replaceAll, Progress.replaceAll]
    cases hp : progress.replace document index block replacement with
    | error e => rfl
    | ok next =>
      have hi : index + 1 + front.length = index + (front.length + 1) := by omega
      simpa only [bind, Except.bind, List.length_cons, hi] using ih (index + 1) next

/-- What is wrong with the block with number `index`, if it does not fit. -/
def Block.fault (cursor index : Nat) (block : Block) : ReplacementError :=
  if block.start < cursor then .outOfOrder index else .staleBlock index block.start block.stop

theorem Progress.replace_of_not_fits {document : Text} {progress : Progress} {block : Block}
    (h : ¬ block.Fits document progress.previousStop) (index : Nat) (replacement : Text) :
    progress.replace document index block replacement =
      .error (block.fault progress.previousStop index) := by
  unfold Progress.replace Block.fault
  split
  · rfl
  · rename_i hle
    rw [if_pos fun held => h ⟨Nat.not_lt.1 hle, held⟩]

/-- `replaceAll` comes to an end only behind blocks that fit. -/
theorem Progress.fitAll_of_replaceAll {document : Text} :
    ∀ {pairs : List (Block × Text)} {progress last : Progress} {done rest written : Text} {index : Nat},
    progress.Stands document done rest written →
    progress.replaceAll document index pairs = .ok last →
    FitAll document progress.previousStop (pairs.map Prod.fst)
  | [], _, _, _, _, _, _, _, _ => fitAll_nil _ _
  | (block, replacement) :: pairs, progress, last, done, rest, written, index, h, hrun => by
    rw [Progress.replaceAll] at hrun
    by_cases hb : block.Fits document progress.previousStop
    · obtain ⟨next, _, _, _, hnext, h₁, hstop, _⟩ := h.replace hb index replacement
      rw [hnext] at hrun
      exact fitAll_cons.2 ⟨hb, hstop ▸ fitAll_of_replaceAll h₁ hrun⟩
    · rw [replace_of_not_fits hb] at hrun
      cases hrun

/-! ## Replacing as a whole -/

variable {document : Text} {blocks : List Block} {replacements : List Text}

theorem stopBefore_take {cursor i j : Nat} (h : j ≤ i) :
    stopBefore cursor (blocks.take i) j = stopBefore cursor blocks j := by
  cases j with
  | zero => rfl
  | succ j =>
    have hj : j < i := h
    simp [stopBefore, List.getElem?_take_of_lt hj]

theorem map_fst_take_zip (h : blocks.length = replacements.length) (i : Nat) :
    ((blocks.zip replacements).take i).map Prod.fst = blocks.take i := by
  rw [List.map_take, List.map_fst_zip (Nat.le_of_eq h)]

theorem fitAll_take {i : Nat} :
    FitAll document 0 (blocks.take i) ↔
      ∀ j < i, ∀ b, blocks[j]? = some b → b.Fits document (stopBefore 0 blocks j) := by
  constructor
  · intro h j hj b hb
    rw [← stopBefore_take (Nat.le_of_lt hj)]
    exact h j b (by rw [List.getElem?_take_of_lt hj, hb])
  · intro h j b hb
    have hj : j < i := by
      have := (List.getElem?_eq_some_iff.1 hb).1
      rw [List.length_take] at this
      omega
    rw [stopBefore_take (Nat.le_of_lt hj)]
    exact h j hj b (by rw [← hb, List.getElem?_take_of_lt hj])

theorem replaceBlocks_eq (h : blocks.length = replacements.length) :
    replaceBlocks document blocks replacements =
      (Progress.replaceAll document { output := document } 0 (blocks.zip replacements)).map
        Progress.output := by
  rw [replaceBlocks, if_neg (not_not_intro h)]
  rfl

theorem replaceBlocks_of_fitAll (hlen : blocks.length = replacements.length)
    (hfit : FitAll document 0 blocks) :
    replaceBlocks document blocks replacements = .ok (splice document blocks replacements) := by
  have hmap : (blocks.zip replacements).map Prod.fst = blocks :=
    List.map_fst_zip (Nat.le_of_eq hlen)
  obtain ⟨last, done, rest, written, hrun, hstands, _, hsplice⟩ :=
    (Progress.stands_start document).replaceAll (hmap.symm ▸ hfit) 0
  rw [replaceBlocks_eq hlen, hrun]
  exact congrArg Except.ok (hstands.output_eq.trans hsplice)

/-- The first block that does not fit is the one that `replaceBlocks` refuses. -/
theorem replaceBlocks_of_not_fits (hlen : blocks.length = replacements.length) {i : Nat}
    {block : Block} (hi : blocks[i]? = some block) (hfit : FitAll document 0 (blocks.take i))
    (hb : ¬ block.Fits document (stopBefore 0 blocks i)) :
    replaceBlocks document blocks replacements =
      .error (block.fault (stopBefore 0 blocks i) i) := by
  have hib : i < blocks.length := (List.getElem?_eq_some_iff.1 hi).1
  have hir : i < replacements.length := hlen ▸ hib
  have hmap := map_fst_take_zip hlen i
  have htake : ((blocks.zip replacements).take i).length = i := by
    rw [List.length_take, List.length_zip]
    omega
  obtain ⟨progress, _, _, _, hrun, _, hstop, _⟩ :=
    (Progress.stands_start document).replaceAll (hmap.symm ▸ hfit) 0
  have hcursor : progress.previousStop = stopBefore 0 blocks i := by
    rw [hstop, hmap, htake, stopBefore_take (Nat.le_refl i)]
  have hdrop : (blocks.zip replacements).drop i =
      (block, replacements[i]) :: (blocks.zip replacements).drop (i + 1) := by
    obtain ⟨_, rfl⟩ := List.getElem?_eq_some_iff.1 hi
    rw [List.drop_eq_getElem_cons (by rw [List.length_zip]; omega), List.getElem_zip]
  have hrefused := Progress.replace_of_not_fits (hcursor ▸ hb) i replacements[i]
  rw [replaceBlocks_eq hlen, ← List.take_append_drop i (blocks.zip replacements),
    Progress.replaceAll_append, hrun, htake, hdrop]
  simp only [Except.bind, Progress.replaceAll, Nat.zero_add, hrefused, hcursor]
  rfl

theorem exists_first_not_fits (h : ¬ FitAll document 0 blocks) :
    ∃ i block, blocks[i]? = some block ∧ FitAll document 0 (blocks.take i) ∧
      ¬ block.Fits document (stopBefore 0 blocks i) := by
  have hex : ∃ i, ∃ block : Block, blocks[i]? = some block ∧
      ¬ block.Fits document (stopBefore 0 blocks i) := by
    simpa [FitAll] using h
  classical
  obtain ⟨block, hi, hb⟩ := Nat.find_spec hex
  refine ⟨Nat.find hex, block, hi, fitAll_take.2 fun j hj b hjb => ?_, hb⟩
  by_contra hn
  exact Nat.find_min hex hj ⟨b, hjb, hn⟩

theorem Progress.stands_of_replaceAll_take (hlen : blocks.length = replacements.length) {i : Nat}
    (hi : i ≤ blocks.length) {progress : Progress}
    (h : Progress.replaceAll document { output := document } 0
      ((blocks.zip replacements).take i) = .ok progress) :
    progress.previousStop = stopBefore 0 blocks i ∧
      ∃ done rest written, progress.Stands document done rest written := by
  have hmap := map_fst_take_zip hlen i
  have hfit := fitAll_of_replaceAll (stands_start document) h
  obtain ⟨last, done, rest, written, hrun, hstands, hstop, _⟩ :=
    (stands_start document).replaceAll hfit 0
  obtain rfl : last = progress := Except.ok.inj (hrun.symm.trans h)
  refine ⟨?_, done, rest, written, hstands⟩
  rw [hstop, hmap, List.length_take, List.length_zip, Nat.min_eq_left (by omega),
    stopBefore_take (Nat.le_refl i)]

theorem isSome_of_mem_outsideFrom {blocks : List Block} (front : Text) {rest : Text}
    (h : FitAll (front ++ rest) (byteLength front) blocks) :
    ∀ piece ∈ outsideFrom (front ++ rest) (byteLength front) blocks, piece.isSome := by
  induction blocks generalizing front rest with
  | nil =>
    intro piece hp
    rw [outsideFrom, List.mem_singleton] at hp
    rw [hp, slice?_append_right]
    rfl
  | cons block blocks ih =>
    obtain ⟨hb, hbs⟩ := fitAll_cons.1 h
    obtain ⟨gap, behind, rfl, hstart, hstop⟩ := hb.exists_gap
    have hall : front ++ (gap ++ block.full ++ behind) = front ++ gap ++ block.full ++ behind := by
      simp
    intro piece hp
    rw [outsideFrom, List.mem_cons, hall] at hp
    rcases hp with rfl | hp
    · rw [hstart, byteLength_append, List.append_assoc (front ++ gap), slice?_append]
      rfl
    · rw [hall] at hbs
      rw [hstop] at hp hbs
      exact ih _ hbs piece hp

/-! ## What replacing comes to -/

theorem replaceBlocks_of_length_ne (h : blocks.length ≠ replacements.length) :
    replaceBlocks document blocks replacements =
      .error (.countMismatch blocks.length replacements.length) := by
  rw [replaceBlocks, if_pos h]

theorem exists_replaceBlocks_eq_ok_iff :
    (∃ out, replaceBlocks document blocks replacements = .ok out) ↔
      blocks.length = replacements.length ∧ FitAll document 0 blocks := by
  constructor
  · rintro ⟨out, h⟩
    have hlen : blocks.length = replacements.length := by
      by_contra hne
      rw [replaceBlocks_of_length_ne hne] at h
      cases h
    refine ⟨hlen, ?_⟩
    by_contra hfit
    obtain ⟨i, block, hi, hfront, hb⟩ := exists_first_not_fits hfit
    rw [replaceBlocks_of_not_fits hlen hi hfront hb] at h
    cases h
  · rintro ⟨hlen, hfit⟩
    exact ⟨_, replaceBlocks_of_fitAll hlen hfit⟩

/-- The first block that does not fit, with what is said about it. -/
def FirstFault (document : Text) (blocks : List Block) (e : ReplacementError) : Prop :=
  ∃ i block, blocks[i]? = some block ∧
    (∀ j < i, ∀ b, blocks[j]? = some b → b.Fits document (stopBefore 0 blocks j)) ∧
    (block.start < stopBefore 0 blocks i ∧ e = .outOfOrder i ∨
      stopBefore 0 blocks i ≤ block.start ∧
        slice? document block.start block.stop ≠ some block.full ∧
        e = .staleBlock i block.start block.stop)

theorem replaceBlocks_eq_error_iff (hlen : blocks.length = replacements.length)
    {e : ReplacementError} :
    replaceBlocks document blocks replacements = .error e ↔ FirstFault document blocks e := by
  constructor
  · intro h
    have hfit : ¬ FitAll document 0 blocks := fun hfit => by
      rw [replaceBlocks_of_fitAll hlen hfit] at h
      cases h
    obtain ⟨i, block, hi, hfront, hb⟩ := exists_first_not_fits hfit
    rw [replaceBlocks_of_not_fits hlen hi hfront hb] at h
    obtain rfl := Except.error.inj h
    refine ⟨i, block, hi, fitAll_take.1 hfront, ?_⟩
    unfold Block.fault
    split
    · exact .inl ⟨‹_›, rfl⟩
    · rename_i hle
      exact .inr ⟨Nat.not_lt.1 hle, fun held => hb ⟨Nat.not_lt.1 hle, held⟩, rfl⟩
  · rintro ⟨i, block, hi, hfront, hfault⟩
    have hb : ¬ block.Fits document (stopBefore 0 blocks i) := fun hb => by
      rcases hfault with ⟨hlt, -⟩ | ⟨-, hne, -⟩
      · exact Nat.not_lt.2 hb.ordered hlt
      · exact hne hb.held
    rw [replaceBlocks_of_not_fits hlen hi (fitAll_take.2 hfront) hb, Block.fault]
    rcases hfault with ⟨hlt, rfl⟩ | ⟨hle, -, rfl⟩
    · rw [if_pos hlt]
    · rw [if_neg (Nat.not_lt.2 hle)]

/-- A position moved by a signed distance as a machine adds them: kept between zero and the
largest position. No text is longer than `longest`, which is half of that. -/
def saturatingMove (longest position : Nat) (distance : Int) : Nat :=
  min (position + distance).toNat (2 * longest + 1)

/-- The `Progress` after the first `i` blocks. -/
def progressAfter (document : Text) (blocks : List Block) (replacements : List Text) (i : Nat) :
    Except ReplacementError Progress :=
  Progress.replaceAll document { output := document } 0 ((blocks.zip replacements).take i)

theorem moved_of_progressAfter (hlen : blocks.length = replacements.length) {i : Nat}
    {progress : Progress} (h : progressAfter document blocks replacements i = .ok progress)
    {block : Block} (hi : blocks[i]? = some block)
    (hb : block.Fits document (stopBefore 0 blocks i)) :
    slice? progress.output (progress.moved block.start)
        (progress.moved block.start + block.length) = some block.full ∧
      ∀ longest, byteLength document ≤ longest → byteLength progress.output ≤ longest →
        -(longest : Int) ≤ progress.drift ∧ progress.drift ≤ longest ∧
        (saturatingMove longest block.start progress.drift : Int) = block.start + progress.drift ∧
        saturatingMove longest block.start progress.drift = progress.moved block.start := by
  have hib : i ≤ blocks.length := Nat.le_of_lt (List.getElem?_eq_some_iff.1 hi).1
  obtain ⟨hcursor, done, rest, written, hstands⟩ := Progress.stands_of_replaceAll_take hlen hib h
  obtain ⟨hmoved, hle, hslice⟩ := hstands.moved_eq (hcursor.symm ▸ hb)
  have hdrift := hstands.drift_eq_sub
  refine ⟨hslice, fun longest hd ho => ?_⟩
  unfold saturatingMove
  unfold Progress.moved at hmoved hle ⊢
  omega

/-- **`replaceBlocks` succeeds exactly where every block fits, and gives the `splice`.** Otherwise
the counts differ, or the first block that does not fit is named. On the way the `moved` place of
each block holds that block's text, and is reached without saturation as long as no text is longer
than the longest. -/
theorem replaceBlocks_outcome (document : Text) (blocks : List Block) (replacements : List Text) :
    ((∃ out, replaceBlocks document blocks replacements = .ok out) ↔
      blocks.length = replacements.length ∧ FitAll document 0 blocks) ∧
    (∀ out, replaceBlocks document blocks replacements = .ok out →
      out = splice document blocks replacements ∧
        ∀ piece ∈ outsideFrom document 0 blocks, piece.isSome) ∧
    (∀ e, replaceBlocks document blocks replacements = .error e ↔
      blocks.length ≠ replacements.length ∧
          e = .countMismatch blocks.length replacements.length ∨
        blocks.length = replacements.length ∧ FirstFault document blocks e) ∧
    (blocks.length = replacements.length → ∀ i progress block,
      progressAfter document blocks replacements i = .ok progress → blocks[i]? = some block →
      block.Fits document (stopBefore 0 blocks i) →
      slice? progress.output (progress.moved block.start)
          (progress.moved block.start + block.length) = some block.full ∧
        ∀ longest, byteLength document ≤ longest → byteLength progress.output ≤ longest →
          -(longest : Int) ≤ progress.drift ∧ progress.drift ≤ longest ∧
          (saturatingMove longest block.start progress.drift : Int) =
            block.start + progress.drift ∧
          saturatingMove longest block.start progress.drift = progress.moved block.start) := by
  refine ⟨exists_replaceBlocks_eq_ok_iff, fun out h => ?_, fun e => ?_,
    fun hlen i progress block h hi hb => moved_of_progressAfter hlen h hi hb⟩
  · obtain ⟨hlen, hfit⟩ := exists_replaceBlocks_eq_ok_iff.1 ⟨out, h⟩
    rw [replaceBlocks_of_fitAll hlen hfit] at h
    exact ⟨(Except.ok.inj h).symm, isSome_of_mem_outsideFrom [] hfit⟩
  · by_cases hlen : blocks.length = replacements.length
    · simp [hlen, replaceBlocks_eq_error_iff hlen]
    · rw [replaceBlocks_of_length_ne hlen, Except.error.injEq, eq_comm]
      simp [hlen]

end MermaidPress.Document
