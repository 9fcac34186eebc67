/-
Repairs of diagram source. Six passes run one after the other, each on what the pass before
it left: two take away parentheses in node labels, one spells out ranges, two put arrows
right and one puts the quotes of subgraphs right. A pass reports what it changed.
-/
import MermaidPress.Diagram.Label

namespace MermaidPress.Diagram

open Text

/-- Something that a repair changed. -/
inductive Change
  | parenthesesRemoved (count : Nat)
  | mathUnwrapped (count : Nat)
  | rangeSpelledOut (first middle last : Text)
  | arrowsMended
  | arrowsSpaced
  | subgraphsQuoted
  deriving DecidableEq, Repr

/-- The wording of a change. -/
def Change.message : Change → String
  | parenthesesRemoved count => s!"Removed {count} problematic parentheses in node labels"
  | mathUnwrapped count => s!"Fixed {count} mathematical expressions in node labels"
  | rangeSpelledOut first middle last =>
    let a := String.ofList first
    let b := String.ofList middle
    let c := String.ofList last
    s!"Converted range notation: {a}-{b}-{c} -> {a} to {b} to {c}"
  | arrowsMended => "Fixed malformed arrow syntax"
  | arrowsSpaced => "Normalized arrow spacing"
  | subgraphsQuoted => "Fixed subgraph quote formatting"

/-- A diagram source after repair, and what was changed, in the order of the passes. -/
structure Repaired where
  source : Text
  changes : List Change
  deriving DecidableEq, Repr

/-- A pass over the source: the source it leaves, and what it changed. -/
abbrev Pass := Text → Text × List Change

/-! ### Labels with a line break -/

/-- The tag for a line break in a label. -/
def lineBreak : Text := "<br/>".toList

/-- A nonempty group that begins here and has a closing bracket somewhere behind it: what
stands in the group, what comes between it and the bracket, and the text behind the bracket. -/
def closedGroup? (t : Text) : Option (Text × Text × Text) :=
  match group? t with
  | none => none
  | some ([], _) => none
  | some (inner, rest) => (upTo? ']' rest).map fun (tail, rest) => (inner, tail, rest)

theorem eq_of_closedGroup? {t inner tail rest : Text}
    (h : closedGroup? t = some (inner, tail, rest)) :
    t = '(' :: inner ++ ')' :: tail ++ ']' :: rest := by
  unfold closedGroup? at h
  split at h
  · simp at h
  · simp at h
  · rename_i hg
    obtain ⟨⟨a, b⟩, hu, heq⟩ := Option.map_eq_some_iff.1 h
    simp only [Prod.mk.injEq] at heq
    obtain ⟨rfl, rfl, rfl⟩ := heq
    rw [eq_of_group? hg, (upTo?_eq_some hu).1]
    simp

/-- A label that begins here, has a line break and behind that, still on the same line, a
closed group: the hit leaves out the parentheses of that group. -/
def lineBreakLabel? : (t : Text) → Option (Hit Unit t)
  | '[' :: t =>
    match hb : alongLine (fun _ s => after? lineBreak s) '[' t with
    | none => none
    | some (head, u) =>
      match hg : alongLine (fun _ s => closedGroup? s) '>' u with
      | none => none
      | some (middle, inner, tail, rest) =>
        some {
          replacement := '[' :: head ++ lineBreak ++ middle ++ inner ++ tail ++ [']']
          rest
          note := ()
          shorter := by
            obtain ⟨_, _, s, rfl, hs⟩ := eq_append_of_alongLine hb
            obtain ⟨_, _, v, rfl, hv⟩ := eq_append_of_alongLine hg
            rw [eq_append_of_after? hs, eq_of_closedGroup? hv]
            simp
            omega }
  | _ => none

/-- Takes away parentheses behind line breaks in labels. -/
def unwrapBehindLineBreaks : Pass := fun source =>
  let (out, hits) := replaceHits lineBreakLabel? source
  (out, if hits.isEmpty then [] else [.parenthesesRemoved hits.length])

/-! ### Formulas in labels -/

/-- A group of two tokens with an operator between them that begins here and has a closing
bracket behind it on its line: the formula, what comes between it and the bracket, and the
text behind the bracket. -/
def formula? (t : Text) : Option (Text × Text × Text) :=
  match after? ['('] t with
  | none => none
  | some t =>
    match token? t with
    | none => none
    | some (_, []) => none
    | some (left, op :: t) =>
      if isOperator op then
        match token? t with
        | none => none
        | some (right, t) =>
          match after? [')'] t with
          | none => none
          | some t => (throughLine? ']' t).map fun (tail, rest) => (left ++ op :: right, tail, rest)
      else none

theorem eq_of_formula? {t formula tail rest : Text}
    (h : formula? t = some (formula, tail, rest)) :
    t = '(' :: formula ++ ')' :: tail ++ ']' :: rest := by
  unfold formula? at h
  split at h <;> try contradiction
  rename_i u hu
  split at h <;> try contradiction
  rename_i left op v hv
  split at h <;> try contradiction
  split at h <;> try contradiction
  rename_i right w hw
  split at h <;> try contradiction
  rename_i x hx
  obtain ⟨⟨a, b⟩, hl, heq⟩ := Option.map_eq_some_iff.1 h
  simp only [Prod.mk.injEq] at heq
  obtain ⟨rfl, rfl, rfl⟩ := heq
  rw [eq_append_of_after? hu, (eq_append_of_token? hv).1, (eq_append_of_token? hw).1,
    eq_append_of_after? hx, eq_append_of_throughLine? hl]
  simp

/-- A label that begins here and has a formula in parentheses on its line: the hit leaves
out the parentheses. -/
def formulaLabel? : (t : Text) → Option (Hit Unit t)
  | '[' :: t =>
    match h : alongLine (fun _ s => formula? s) '[' t with
    | none => none
    | some (head, formula, tail, rest) =>
      some {
        replacement := '[' :: head ++ formula ++ tail ++ [']']
        rest
        note := ()
        shorter := by
          obtain ⟨_, _, s, rfl, hs⟩ := eq_append_of_alongLine h
          rw [eq_of_formula? hs]
          simp
          omega }
  | _ => none

/-- Takes away parentheses around formulas in labels. -/
def unwrapFormulas : Pass := fun source =>
  let (out, hits) := replaceHits formulaLabel? source
  (out, if hits.isEmpty then [] else [.mathUnwrapped hits.length])

/-! ### Ranges in labels -/

/-- Three tokens joined by hyphens, which stand as a word of their own and have a closing
bracket behind them on their line. -/
structure Chain where
  first : Text
  middle : Text
  last : Text
  /-- What comes between the chain and the bracket. -/
  tail : Text
  /-- The text behind the bracket. -/
  rest : Text

/-- The chain as it is written, up to the bracket. -/
def Chain.written (chain : Chain) : Text :=
  chain.first ++ '-' :: chain.middle ++ '-' :: chain.last ++ chain.tail ++ [']']

/-- The chain as a range in words, up to the bracket. -/
def Chain.spelledOut (chain : Chain) : Text :=
  let join := " to ".toList
  chain.first ++ join ++ chain.middle ++ join ++ chain.last ++ chain.tail ++ [']']

/-- A chain that begins here, behind the character `previous`. -/
def chain? (previous : Char) (t : Text) : Option Chain :=
  if isWord previous then none
  else
    match token? t with
    | some (first, '-' :: t) =>
      match token? t with
      | some (middle, '-' :: t) =>
        match token? t with
        | some (last, t) =>
          if t.head?.any isWord then none
          else (throughLine? ']' t).map fun (tail, rest) => { first, middle, last, tail, rest }
        | none => none
      | _ => none
    | _ => none

theorem eq_of_chain? {previous : Char} {t : Text} {chain : Chain}
    (h : chain? previous t = some chain) : t = chain.written ++ chain.rest := by
  unfold chain? at h
  split at h <;> try contradiction
  split at h <;> try contradiction
  rename_i first u hu
  split at h <;> try contradiction
  rename_i middle v hv
  split at h <;> try contradiction
  rename_i last w hw
  split at h <;> try contradiction
  obtain ⟨⟨a, b⟩, hl, rfl⟩ := Option.map_eq_some_iff.1 h
  rw [(eq_append_of_token? hu).1, (eq_append_of_token? hv).1, (eq_append_of_token? hw).1,
    eq_append_of_throughLine? hl]
  simp [Chain.written]

/-- Whether a chain in a label means a range: the label is about videos or one of the tokens
has a digit. Other chains are compound names. -/
def isRange (label : Text) (chain : Chain) : Bool :=
  includes "video".toList (toLowerAscii label) ||
    [chain.first, chain.middle, chain.last].any fun token => token.any Char.isDigit

/-- A label that begins here and has a chain on its line. The hit spells the chain out where
it means a range, and otherwise leaves the label as it is. -/
def chainLabel? : (t : Text) → Option (Hit (Option Change) t)
  | '[' :: t =>
    match h : alongLine chain? '[' t with
    | none => none
    | some (head, chain) =>
      let label := '[' :: head ++ chain.written
      let range := isRange label chain
      some {
        replacement := if range then '[' :: head ++ chain.spelledOut else label
        rest := chain.rest
        note := if range then some (.rangeSpelledOut chain.first chain.middle chain.last) else none
        shorter := by
          obtain ⟨_, _, s, rfl, hs⟩ := eq_append_of_alongLine h
          rw [eq_of_chain? hs]
          simp [Chain.written]
          omega }
  | _ => none

/-- Spells out ranges in labels. -/
def spellOutRanges : Pass := fun source =>
  let (out, hits) := replaceHits chainLabel? source
  (out, hits.filterMap id)

/-! ### Arrows -/

/-- An arrow with one blank on either side. -/
def spacedArrow : Text := " --> ".toList

/-- An arrow that begins here and has a second head: the hit has one spaced arrow instead. -/
def doubledArrow? (t : Text) : Option (Hit Unit t) :=
  match h : afterDoubledHead? t with
  | none => none
  | some rest =>
    some {
      replacement := spacedArrow
      rest
      note := ()
      shorter := by
        unfold afterDoubledHead? at h
        obtain ⟨u, hu, hr⟩ := Option.bind_eq_some_iff.1 h
        have h₁ : t.length = arrow.length + u.length := length_of_after? hu
        have h₂ := length_of_after? hr
        have h₃ := length_trimLeft_le u
        have h₄ : arrow.length = 3 := rfl
        simp at h₂
        omega }

/-- Makes one arrow of each arrow with a second head. -/
def mendArrows : Pass := fun source =>
  let (out, hits) := replaceHits doubledArrow? source
  (out, if hits.isEmpty then [] else [.arrowsMended])

/-- Blanks that begin here, if any, with an arrow behind them and the blanks behind that:
the hit has one blank on either side of the arrow. -/
def looseArrow? (t : Text) : Option (Hit Unit t) :=
  match h : afterArrow? (trimLeft t) with
  | none => none
  | some rest =>
    some {
      replacement := spacedArrow
      rest := trimLeft rest
      note := ()
      shorter := by
        have h₁ : (trimLeft t).length = arrow.length + rest.length := length_of_after? h
        have h₂ := length_trimLeft_le t
        have h₃ := length_trimLeft_le rest
        have h₄ : arrow.length = 3 := rfl
        omega }

/-- Puts one blank on either side of every arrow. -/
def spaceArrows : Pass := fun source =>
  let out := (replaceHits looseArrow? source).1
  (out, if out = source then [] else [.arrowsSpaced])

/-! ### Subgraphs -/

/-- The blanks that begin here up to the last line break among them, and the text behind
that line break. -/
def throughLastBreak? (t : Text) : Option (Text × Text) :=
  let blanks := t.takeWhile isBlank
  let after := blanks.reverse.takeWhile (· != '\n')
  match blanks.reverse.dropWhile (· != '\n') with
  | [] => none
  | before => some (before.reverse, after.reverse ++ t.dropWhile isBlank)

theorem eq_append_of_throughLastBreak? {t blanks rest : Text}
    (h : throughLastBreak? t = some (blanks, rest)) : t = blanks ++ rest := by
  unfold throughLastBreak? at h
  dsimp only at h
  split at h
  · simp at h
  · simp only [Option.some.injEq, Prod.mk.injEq] at h
    obtain ⟨rfl, rfl⟩ := h
    rw [← List.append_assoc, ← List.reverse_append, List.takeWhile_append_dropWhile,
      List.reverse_reverse, List.takeWhile_append_dropWhile]

/-- A subgraph with a quoted name that begins here and ends its line: the hit has one blank
before the name. -/
def quotedSubgraph? (t : Text) : Option (Hit Unit t) :=
  let keyword := "subgraph".toList
  match hk : after? keyword t with
  | none => none
  | some [] => none
  | some (c :: u) =>
    if isBlank c then
      match hq : after? ['"'] (trimLeft u) with
      | none => none
      | some v =>
        match hn : upTo? '"' v with
        | none => none
        | some (name, w) =>
          match hb : throughLastBreak? w with
          | none => none
          | some (blanks, rest) =>
            some {
              replacement := keyword ++ " \"".toList ++ name ++ '"' :: blanks
              rest
              note := ()
              shorter := by
                have h₁ := length_of_after? hk
                have h₂ := length_of_after? hq
                have h₃ := length_trimLeft_le u
                have h₄ := congrArg List.length (upTo?_eq_some hn).1
                have h₅ := congrArg List.length (eq_append_of_throughLastBreak? hb)
                simp at h₁ h₂ h₄ h₅
                omega }
    else none

/-- Puts one blank between a subgraph and its quoted name. -/
def quoteSubgraphs : Pass := fun source =>
  let out := (replaceHits quotedSubgraph? source).1
  (out, if out = source then [] else [.subgraphsQuoted])

/-! ### All passes -/

/-- The passes, in the order in which they run. -/
def passes : List Pass :=
  [unwrapBehindLineBreaks, unwrapFormulas, spellOutRanges, mendArrows, spaceArrows,
    quoteSubgraphs]

/-- Runs a pass on what the passes before it left. -/
def Repaired.step (state : Repaired) (pass : Pass) : Repaired :=
  let (source, changes) := pass state.source
  { source, changes := state.changes ++ changes }

/-- The source after all passes. -/
def repair (source : Text) : Repaired :=
  passes.foldl Repaired.step { source, changes := [] }

/-- Whether anything was changed. -/
def Repaired.isChanged (repaired : Repaired) : Bool := !repaired.changes.isEmpty

end MermaidPress.Diagram
