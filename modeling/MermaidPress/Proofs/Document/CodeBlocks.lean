/-
The scan against the fenced blocks that a reader of the document sees, of any language. Those are
read line by line: a line of three ticks or more opens a block, and the next line of as many ticks
or more closes it, so that a block may show fences with fewer ticks as an example. The scan knows
neither lines nor blocks: it takes an opening wherever it stands, and closes it at the next three
ticks. So a span may lie in a block of another language, or close on the ticks that open one; and
these are the only two ways in which it has a part in common with such a block.
-/
import MermaidPress.Proofs.Document.Fences
import MermaidPress.Proofs.Text.Lines

namespace MermaidPress.Document

open Text

/-! ## Fenced blocks by lines -/

/-- How many ticks a line opens a block with, and the info string behind them, which has none. -/
def codeFence? (line : Line) : Option (Nat × Text) :=
  let ticks := line.text.takeWhile (· = '`')
  let info := line.text.dropWhile (· = '`')
  if 3 ≤ ticks.length && !info.contains '`' then some (ticks.length, info) else none

/-- Whether a line closes a block that is opened with `count` ticks: it has as many or more, and
nothing else. -/
def closesCode (count : Nat) (line : Line) : Bool :=
  count ≤ line.text.length && line.text.all (· = '`')

/-- A fenced block: its info string, and where its lines begin and end. -/
structure CodeBlock where
  info : Text
  start : Nat
  stop : Nat
  deriving DecidableEq, Repr

/-- The info string of the block that a line opens, and how many of the lines behind it belong to
the block: those up to the first that closes it. -/
def codeExtent? (line : Line) (rest : List Line) : Option (Text × Nat) := do
  let (count, info) ← codeFence? line
  let before ← rest.findIdx? (closesCode count)
  some (info, before + 1)

/-- The blocks of lines that begin at byte `offset`. Within a block no other is looked for, and a
line that opens a block without a line that closes it is passed over. -/
def codeBlocksFrom (offset : Nat) : List Line → List CodeBlock
  | [] => []
  | line :: rest =>
    match codeExtent? line rest with
    | none => codeBlocksFrom (offset + byteLength line.whole) rest
    | some (info, size) =>
      let stop := offset + byteLength (unlines (line :: rest.take size))
      { info, start := offset, stop } :: codeBlocksFrom stop (rest.drop size)
termination_by ls => ls.length
decreasing_by
  · simp
  · simp only [List.length_drop, List.length_cons]
    omega

/-- The fenced blocks of a document, from the top. -/
def codeBlocks (document : Text) : List CodeBlock := codeBlocksFrom 0 (lines document)

/-- The info string of diagrams. -/
def diagramInfo : Text := "mermaid".toList

/-- A fenced block and a diagram have a part in common. -/
def CodeBlock.Meets (code : CodeBlock) (block : Block) : Prop :=
  code.start < block.stop ∧ block.start < code.stop

instance (code : CodeBlock) (block : Block) : Decidable (code.Meets block) :=
  inferInstanceAs (Decidable (_ ∧ _))

/-- No diagram that `extract` finds `Meets` a block of another language. -/
def LeavesOthers (document : Text) : Prop :=
  ∀ block ∈ extract document, ∀ code ∈ codeBlocks document,
    code.info ≠ diagramInfo → ¬ code.Meets block

instance (document : Text) : Decidable (LeavesOthers document) :=
  inferInstanceAs (Decidable (∀ block ∈ extract document, ∀ code ∈ codeBlocks document,
    code.info ≠ diagramInfo → ¬ code.Meets block))

/-! ## Ticks and openings by lines -/

theorem takeWhile_tick (t : Text) :
    t.takeWhile (· = '`') = List.replicate (t.takeWhile (· = '`')).length '`' :=
  List.eq_replicate_iff.2
    ⟨rfl, fun c hc => by simpa using List.all_eq_true.1 List.all_takeWhile c hc⟩

theorem codeFence?_eq_some {line : Line} {count : Nat} {info : Text}
    (h : codeFence? line = some (count, info)) :
    3 ≤ count ∧ line.text = List.replicate count '`' ++ info := by
  simp only [codeFence?, Option.ite_none_right_eq_some, Bool.and_eq_true, decide_eq_true_iff,
    Option.some.injEq, Prod.mk.injEq] at h
  obtain ⟨⟨hthree, -⟩, rfl, rfl⟩ := h
  exact ⟨hthree, by rw [← takeWhile_tick, List.takeWhile_append_dropWhile]⟩

theorem text_of_closesCode {line : Line} {count : Nat} (h : closesCode count line = true) :
    ∃ n, count ≤ n ∧ line.text = List.replicate n '`' := by
  simp only [closesCode, Bool.and_eq_true, decide_eq_true_iff, List.all_eq_true] at h
  exact ⟨_, h.1, List.eq_replicate_iff.2 ⟨rfl, h.2⟩⟩

theorem byteLength_ticks (n : Nat) : byteLength (List.replicate n '`') = n := by
  induction n with
  | zero => rfl
  | succ n ih =>
    rw [List.replicate_succ, byteLength_cons, ih, Nat.add_comm]
    rfl

theorem ticksAt_of_lines {t more : Text} {line : Line} {rest : List Line} {n : Nat} (h : 3 ≤ n)
    (hlines : lines t = line :: rest) (hline : line.text = List.replicate n '`' ++ more)
    (front : Text) : TicksAt (front ++ t) (byteLength front) := by
  obtain ⟨t', rfl, -⟩ := exists_of_lines_cons hlines
  obtain ⟨k, rfl⟩ := Nat.exists_eq_add_of_le h
  refine slice?_eq_some_iff.2
    ⟨front, List.replicate k '`' ++ more ++ line.ending ++ t', ?_, rfl, rfl⟩
  rw [Line.whole, hline, ← List.replicate_append_replicate]
  simp [closing]

theorem IsOpening.eq_nil_of_feed {before after : Text}
    (h : IsOpening (before ++ ['\n'] ++ after)) : after = [] := by
  obtain ⟨lead, hlead, hfeed⟩ : ∃ lead, before ++ ['\n'] ++ after = lead ++ ['\n'] ∧
      '\n' ∉ lead := by
    rcases h with h | h
    · exact ⟨openingWord, h, by decide⟩
    · exact ⟨openingWord ++ ['\r'], h, by decide⟩
  rcases List.eq_nil_or_concat after with rfl | ⟨after, last, rfl⟩
  · rfl
  · rw [List.concat_eq_append, ← List.append_assoc] at hlead
    rw [← (List.append_inj' hlead rfl).1] at hfeed
    simp at hfeed

/-- No line begins within an opening. -/
theorem OpensAt.stop_le_of_lineAt {document : Text} {start stop position : Nat}
    (h : OpensAt document start stop) (hline : LineAt document position) (hlt : start < position) :
    stop ≤ position := by
  obtain ⟨opening, ho, hslice⟩ := h
  rcases hline with rfl | hfeed
  · omega
  · refine Nat.le_of_not_lt fun hwithin => ?_
    obtain ⟨before, after, rfl, -, hstop⟩ :=
      exists_of_slice?_within hslice hfeed (by omega) (by omega)
    rw [ho.eq_nil_of_feed, byteLength_nil] at hstop
    omega

/-- A diagram that opens before a line of ticks closes before it, or with its first three. -/
theorem IsFence.stop_of_lineAt {document : Text} {block : Block} {position : Nat}
    (h : IsFence document block) (hline : LineAt document position)
    (hticks : TicksAt document position) (hlt : block.start < position) :
    block.stop ≤ position ∨ block.stop = position + 3 := by
  obtain ⟨inside, ticks, body, hopen, -, hclose, hfirst, hstop, -⟩ := h.parts
  have hle := hfirst position (hopen.stop_le_of_lineAt hline hlt) hticks
  rcases hline with rfl | hfeed
  · omega
  · by_cases hwithin : ticks < position ∧ position < ticks + 3
    · obtain ⟨before, after, hwhole, -⟩ :=
        exists_of_slice?_within hclose hfeed (by omega) (by omega)
      have hmem : '\n' ∈ closing := by rw [hwhole]; simp
      exact absurd hmem (by decide)
    · omega

/-! ## What a fenced block is in its document -/

/-- What matters of a fenced block to the diagrams around it: its first line is one of ticks, and
opens no diagram unless the info string says so; and behind its first line there is one of ticks,
on which no diagram opens up to the end of the block. -/
structure IsCodeBlock (document : Text) (code : CodeBlock) : Prop where
  lineAt : LineAt document code.start
  ticksAt : TicksAt document code.start
  info : ∀ stop, OpensAt document code.start stop → code.info = diagramInfo
  closes : ∃ last, code.start < last ∧ last + 3 ≤ code.stop ∧ LineAt document last ∧
    TicksAt document last ∧ ∀ start stop, last ≤ start → start < code.stop →
      ¬ OpensAt document start stop

theorem lines_opening_append {opening : Text} (h : IsOpening opening) (rest : Text) :
    ∃ line ls, lines (opening ++ rest) = line :: ls ∧ codeFence? line = some (3, diagramInfo) := by
  rcases h with rfl | rfl
  · exact ⟨{ text := openingWord, ending := ['\n'] }, lines rest, rfl, by decide⟩
  · exact ⟨{ text := openingWord, ending := ['\r', '\n'] }, lines rest, rfl, by decide⟩

/-- No diagram opens on a line that `closesCode`. -/
theorem not_opensAt_of_closesCode {front t : Text} {last : Line} {behind : List Line} {count : Nat}
    (hfront : EndsLine front) (hlines : lines t = last :: behind)
    (hcloses : closesCode count last = true) {start stop : Nat} (hle : byteLength front ≤ start)
    (hlt : start < byteLength (front ++ last.whole)) : ¬ OpensAt (front ++ t) start stop := by
  intro hopen
  obtain ⟨t', rfl, hbehind⟩ := exists_of_lines_cons hlines
  have hstop : stop ≤ byteLength (front ++ last.whole) := by
    by_cases hnil : behind = []
    · obtain rfl : t' = [] := by rw [← unlines_lines t', ← hbehind, hnil]; rfl
      obtain ⟨opening, -, hslice⟩ := hopen
      simpa using (le_of_slice? hslice).2
    · have hsplit : lines (last.whole ++ t') = [last] ++ behind := hlines
      have hnext := hfront.append_unlines hsplit hnil
      rw [unlines_cons, unlines_nil, List.append_nil] at hnext
      have hline := hnext.lineAt t'
      rw [List.append_assoc] at hline
      exact hopen.stop_le_of_lineAt hline hlt
  obtain ⟨opening, ho, hslice⟩ := hopen
  have hlast := slice?_append front last.whole t'
  rw [← byteLength_append, List.append_assoc] at hlast
  obtain ⟨before, after, hwhole, -⟩ := exists_of_slice?_within hlast hslice hle hstop
  have hopening : 'm' ∈ opening := by rcases ho with rfl | rfl <;> decide
  have hletter : 'm' ∈ last.whole := by simp [hwhole, hopening]
  obtain ⟨n, -, hticks⟩ := text_of_closesCode hcloses
  rw [Line.whole, hticks] at hletter
  rcases ending_of_lines hlines with ⟨hending, -⟩ | hending | hending <;>
    simp [hending, List.mem_replicate] at hletter

theorem isCodeBlock_of_lines {front t : Text} {line last : Line} {inside behind : List Line}
    {count : Nat} {info : Text} (hfront : EndsLine front)
    (hlines : lines t = line :: inside ++ last :: behind)
    (hopens : codeFence? line = some (count, info)) (hcloses : closesCode count last = true) :
    IsCodeBlock (front ++ t) {
      info
      start := byteLength front
      stop := byteLength front + byteLength (unlines (line :: (inside ++ [last]))) } := by
  obtain ⟨hcount, hline⟩ := codeFence?_eq_some hopens
  obtain ⟨n, hn, hlast⟩ := text_of_closesCode hcloses
  have hstop : byteLength front + byteLength (unlines (line :: (inside ++ [last]))) =
      byteLength (front ++ unlines (line :: inside) ++ last.whole) := by simp
  refine ⟨hfront.lineAt t, ticksAt_of_lines hcount hlines hline front, ?_, ?_⟩
  · rintro stop ⟨opening, ho, hslice⟩
    obtain ⟨before, rest, ht, hbefore, -⟩ := slice?_eq_some_iff.1 hslice
    rw [List.append_assoc] at ht
    obtain ⟨-, rfl⟩ := append_inj_of_byteLength ht hbefore.symm
    obtain ⟨line', ls, hlines', hfence⟩ := lines_opening_append ho rest
    rw [hlines'] at hlines
    rw [(List.cons.inj hlines).1, hopens] at hfence
    exact (Prod.mk.inj (Option.some.inj hfence)).2
  · have hbefore := hfront.append_unlines hlines (List.cons_ne_nil _ _)
    obtain ⟨t', rfl, hlast'⟩ := exists_of_lines_append hlines
    rw [← List.append_assoc, hstop]
    refine ⟨byteLength (front ++ unlines (line :: inside)), ?_, ?_, hbefore.lineAt t',
      ticksAt_of_lines (Nat.le_trans hcount hn) hlast'.symm (by rw [hlast, List.append_nil]) _,
      fun start stop hle hlt => not_opensAt_of_closesCode hbefore hlast'.symm hcloses hle hlt⟩
    · have : 0 < byteLength line.whole := by
        rw [Line.whole, hline]
        simp only [byteLength_append, byteLength_ticks]
        omega
      simp only [byteLength_append, unlines_cons]
      omega
    · simp only [byteLength_append, Line.whole, hlast, byteLength_ticks]
      omega

/-- The lines that `codeExtent?` reads: the one that opens a block, those inside, and the one that
closes it. -/
theorem codeExtent?_eq_some {line : Line} {rest : List Line} {info : Text} {size : Nat}
    (h : codeExtent? line rest = some (info, size)) :
    ∃ count inside last, codeFence? line = some (count, info) ∧ closesCode count last = true ∧
      rest.take size = inside ++ [last] ∧ rest = inside ++ last :: rest.drop size := by
  obtain ⟨⟨count, info'⟩, hopens, h⟩ := Option.bind_eq_some_iff.1 h
  obtain ⟨before, hfind, h⟩ := Option.bind_eq_some_iff.1 h
  obtain ⟨rfl, rfl⟩ := Prod.mk.inj (Option.some.inj h)
  obtain ⟨hlt, hcloses, -⟩ := List.findIdx?_eq_some_iff_getElem.1 hfind
  refine ⟨count, rest.take before, rest[before], hopens, hcloses,
    List.take_succ_eq_append_getElem hlt, ?_⟩
  rw [← List.drop_eq_getElem_cons hlt, List.take_append_drop]

theorem exists_behind {front t : Text} {seen more : List Line} {offset : Nat} {code : CodeBlock}
    (hfront : EndsLine front) (hlines : lines t = seen ++ more)
    (hcode : code ∈ codeBlocksFrom offset more) :
    EndsLine (front ++ unlines seen) ∧
      ∃ t', front ++ t = front ++ unlines seen ++ t' ∧ lines t' = more := by
  obtain ⟨t', ht, hmore⟩ := exists_of_lines_append hlines
  refine ⟨hfront.append_unlines hlines ?_, t', by rw [ht, List.append_assoc], hmore.symm⟩
  rintro rfl
  rw [codeBlocksFrom] at hcode
  cases hcode

theorem isCodeBlock_of_mem {offset : Nat} {front t : Text} {code : CodeBlock}
    (hoffset : byteLength front = offset) (hfront : EndsLine front)
    (h : code ∈ codeBlocksFrom offset (lines t)) : IsCodeBlock (front ++ t) code := by
  generalize hls : lines t = ls at h
  fun_induction codeBlocksFrom offset ls generalizing front t with
  | case1 => cases h
  | case2 offset line rest hnone ih =>
    have hsplit : lines t = [line] ++ rest := hls
    obtain ⟨hnext, t', ht, hlines⟩ := exists_behind hfront hsplit h
    rw [ht]
    exact ih (by simp [hoffset]) hnext hlines h
  | case3 offset line rest info size hextent stop =>
    rename_i ih
    obtain ⟨count, inside, last, hopens, hcloses, hseen, hrest⟩ := codeExtent?_eq_some hextent
    rcases List.mem_cons.1 h with rfl | h
    · have hblock := isCodeBlock_of_lines hfront (hls.trans (congrArg _ hrest)) hopens hcloses
      rw [← hseen, hoffset] at hblock
      exact hblock
    · have hsplit : line :: rest = line :: rest.take size ++ rest.drop size := by simp
      obtain ⟨hnext, t', ht, hlines⟩ := exists_behind hfront (hls.trans hsplit) h
      rw [ht]
      exact ih (by rw [byteLength_append, hoffset]) hnext hlines h

theorem isCodeBlock_of_mem_codeBlocks {document : Text} {code : CodeBlock}
    (h : code ∈ codeBlocks document) : IsCodeBlock document code :=
  show IsCodeBlock ([] ++ document) code from isCodeBlock_of_mem rfl (.inl rfl) h

/-- A block with fences of fewer ticks in it, and behind it an opening that nothing closes. -/
example : codeBlocks "````md\r\n```js\n```\n````\r\n```\n".toList =
    [{ info := "md".toList, start := 0, stop := 24 }] := by
  decide +kernel

/-! ## Blocks stand one behind the other -/

theorem pairwise_codeBlocksFrom (offset : Nat) (ls : List Line) :
    (∀ code ∈ codeBlocksFrom offset ls, offset ≤ code.start) ∧
      (codeBlocksFrom offset ls).Pairwise fun code later => code.stop ≤ later.start := by
  fun_induction codeBlocksFrom offset ls with
  | case1 => exact ⟨by simp, .nil⟩
  | case2 offset line rest hnone ih =>
    exact ⟨fun code h => Nat.le_trans (Nat.le_add_right _ _) (ih.1 code h), ih.2⟩
  | case3 offset line rest info size hextent stop =>
    rename_i ih
    refine ⟨fun code h => ?_, List.pairwise_cons.2 ⟨ih.1, ih.2⟩⟩
    rcases List.mem_cons.1 h with rfl | h
    · exact Nat.le_refl _
    · exact Nat.le_trans (Nat.le_add_right _ _) (ih.1 code h)

/-- Two of the `codeBlocks` that have a part in common are one. -/
theorem eq_of_mem_codeBlocks {document : Text} {code other : CodeBlock}
    (h : code ∈ codeBlocks document) (hother : other ∈ codeBlocks document)
    (hlt : code.start < other.stop) (hgt : other.start < code.stop) : code = other := by
  have hpairwise := List.pairwise_iff_getElem.1 (pairwise_codeBlocksFrom 0 (lines document)).2
  obtain ⟨i, hi, rfl⟩ := List.mem_iff_getElem.1 h
  obtain ⟨j, hj, rfl⟩ := List.mem_iff_getElem.1 hother
  rcases Nat.lt_trichotomy i j with hij | rfl | hij
  · exact absurd (hpairwise i j hi hj hij) (Nat.not_le_of_lt hgt)
  · rfl
  · exact absurd (hpairwise j i hj hi hij) (Nat.not_le_of_lt hlt)

/-! ## Diagrams and blocks -/

theorem IsFence.stop_le {document : Text} {block : Block} {code : CodeBlock}
    (h : IsFence document block) (hcode : IsCodeBlock document code)
    (hlt : block.start < code.stop) : block.stop ≤ code.stop := by
  obtain ⟨last, -, hstop, hline, hticks, hnone⟩ := hcode.closes
  obtain ⟨inside, _, _, hopen, -⟩ := h.parts
  have hbefore : block.start < last :=
    Nat.lt_of_not_le fun hle => hnone block.start inside hle hlt hopen
  have := h.stop_of_lineAt hline hticks hbefore
  omega

/-- **A diagram `Meets` a fenced block in two ways only**: it lies within the block, or it opens
before the block and closes on the ticks that the block opens with. -/
theorem meets_iff {document : Text} {block : Block} {code : CodeBlock}
    (h : IsFence document block) (hcode : IsCodeBlock document code) :
    code.Meets block ↔ code.start ≤ block.start ∧ block.stop ≤ code.stop ∨
      block.start < code.start ∧ block.stop = code.start + 3 := by
  have hlt := h.start_lt_stop
  unfold CodeBlock.Meets
  constructor
  · rintro ⟨hbefore, hbehind⟩
    rcases Nat.lt_or_ge block.start code.start with hstart | hstart
    · have := h.stop_of_lineAt hcode.lineAt hcode.ticksAt hstart
      exact .inr ⟨hstart, by omega⟩
    · exact .inl ⟨hstart, h.stop_le hcode hbehind⟩
  · obtain ⟨last, hlast, hstop, -⟩ := hcode.closes
    omega

/-- **When blocks of other languages are left alone.** `LeavesOthers` holds exactly where each
diagram that `extract` finds either lies within a block of diagrams, or opens outside of all blocks
and does not close on the ticks that a block of another language opens with. -/
theorem leavesOthers_iff (document : Text) :
    LeavesOthers document ↔ ∀ block ∈ extract document,
      (∃ code ∈ codeBlocks document, code.info = diagramInfo ∧
        code.start ≤ block.start ∧ block.stop ≤ code.stop) ∨
      ∀ code ∈ codeBlocks document, ¬ (code.start ≤ block.start ∧ block.start < code.stop) ∧
        (code.info ≠ diagramInfo → block.stop ≠ code.start + 3) := by
  have hfences := (areFences_extract document).fenced
  refine forall₂_congr fun block hblock => ?_
  have hfence := hfences block hblock
  have hlt := hfence.start_lt_stop
  constructor
  · intro hleaves
    by_cases hopens : ∃ code ∈ codeBlocks document,
        code.start ≤ block.start ∧ block.start < code.stop
    · obtain ⟨code, hcode, hle, hbefore⟩ := hopens
      have hstop := hfence.stop_le (isCodeBlock_of_mem_codeBlocks hcode) hbefore
      refine .inl ⟨code, hcode, Decidable.of_not_not fun hother => ?_, hle, hstop⟩
      exact hleaves code hcode hother ⟨Nat.lt_of_le_of_lt hle hlt, hbefore⟩
    · refine .inr fun code hcode => ⟨fun hwithin => hopens ⟨code, hcode, hwithin⟩, ?_⟩
      intro hother hticks
      obtain ⟨last, hlast, hstop, -⟩ := (isCodeBlock_of_mem_codeBlocks hcode).closes
      exact hleaves code hcode hother ⟨by omega, by omega⟩
  · rintro (⟨diagrams, hdiagrams, hinfo, hle, hstop⟩ | houtside) code hcode hother hmeets
    · have hsame := eq_of_mem_codeBlocks hdiagrams hcode
        (Nat.lt_of_le_of_lt hle hmeets.2) (Nat.lt_of_lt_of_le hmeets.1 hstop)
      exact hother (hsame ▸ hinfo)
    · obtain ⟨hnotWithin, hnotTicks⟩ := houtside code hcode
      rcases (meets_iff hfence (isCodeBlock_of_mem_codeBlocks hcode)).1 hmeets with
        ⟨hle, -⟩ | ⟨-, hticks⟩
      · exact hnotWithin ⟨hle, hmeets.2⟩
      · exact hnotTicks hother hticks

/-- A block that shows how a diagram is written, and so is opened with more ticks than that. -/
theorem not_leavesOthers_of_example :
    ¬ LeavesOthers "````md\n```mermaid\nA\n```\n````\n".toList := by
  decide +kernel

/-- The other way: an opening within a line is closed by the ticks that open the next block. -/
example : ¬ LeavesOthers "see ```mermaid\nA\n```js\nx\n```\n".toList := by
  decide +kernel

end MermaidPress.Document
