/-
Variables of the environment in texts. A text is first taken apart into characters that
stand for themselves and references to variables, and then put together again with the
values; a value that is put in is not looked at again.

`expand_eq_of_agree` says that no variable matters but those that the text refers to.
-/
import MermaidPress.Text.Alphanumeric

namespace MermaidPress

/-- The values of the variables that are set. -/
abbrev Environment := Text → Option Text

/-- The environment of entries of the form `NAME=value`, of which the first of a name
counts. The empty name is never set. -/
def Environment.ofEntries (entries : List Text) : Environment := fun name =>
  if name.isEmpty then none else entries.findSome? (Text.after? (name ++ ['=']))

namespace Expansion

/-- A piece of a text with references. -/
inductive Piece
  | literal (c : Char)
  /-- A variable, and what takes its place where it is not set. -/
  | reference (name : Text) (fallback : Option Text)
  deriving DecidableEq, Repr

/-- The characters of names without braces. -/
def isNameChar (c : Char) : Bool := Text.isAlphanumeric c || c = '_'

/-- The reference between two braces: a name, or a name and a fallback with `:-` between
them. A name in front of a fallback is not empty. -/
def braced (inner : Text) : Piece :=
  match Text.cut? [':', '-'] inner with
  | some (name@(_ :: _), fallback) => .reference name (some fallback)
  | _ => .reference inner none

/-- The piece at the front of a text, and the text behind it. -/
def next (c : Char) (rest : Text) : Piece × Text :=
  if c ≠ '$' then (.literal c, rest)
  else
    match rest with
    | [] => (.literal '$', [])
    | d :: behind =>
      if d = '$' then (.literal '$', behind)
      else if d = '{' then
        match Text.upTo? '}' behind with
        | some (inner, after) => (braced inner, after)
        | none => (.literal '$', rest)
      else if isNameChar d then
        (.reference (d :: behind.takeWhile isNameChar) none, behind.dropWhile isNameChar)
      else (.literal '$', rest)

theorem length_next_le (c : Char) (rest : Text) : (next c rest).2.length ≤ rest.length := by
  unfold next
  split
  · exact Nat.le_refl _
  · split
    · exact Nat.le_refl _
    · rename_i d behind
      split
      · exact Nat.le_succ _
      · split
        · split
          · rename_i inner after h
            have := congrArg List.length (Text.upTo?_eq_some h).1
            simp only [List.length_append, List.length_cons] at this ⊢
            omega
          · exact Nat.le_refl _
        · split
          · exact Nat.le_succ_of_le (List.dropWhile_sublist _).length_le
          · exact Nat.le_refl _

/-- The pieces of a text. -/
def pieces : Text → List Piece
  | [] => []
  | c :: rest => (next c rest).1 :: pieces (next c rest).2
termination_by t => t.length
decreasing_by exact Nat.lt_succ_of_le (length_next_le c rest)

/-- The variable that a piece refers to. -/
def Piece.name? : Piece → Option Text
  | literal _ => none
  | reference name _ => some name

/-- The variables that a text refers to. -/
def references (t : Text) : List Text := (pieces t).filterMap Piece.name?

/-- The text of a piece, or the name of the variable that is missing. -/
def Piece.fill (env : Environment) : Piece → Except Text Text
  | literal c => .ok [c]
  | reference name fallback =>
    match env name, fallback with
    | some value, _ => .ok value
    | none, some text => .ok text
    | none, none => .error name

/-- The text of pieces, or the name of the first variable that is missing. -/
def fillAll (env : Environment) : List Piece → Except Text Text
  | [] => .ok []
  | piece :: rest => do
    let text ← piece.fill env
    let others ← fillAll env rest
    .ok (text ++ others)

/-- A text with its references replaced, or the name of the first variable that is
neither set nor has a fallback. -/
def expand (env : Environment) (t : Text) : Except Text Text := fillAll env (pieces t)

theorem fill_eq_of_agree {env env' : Environment} {piece : Piece}
    (h : ∀ name ∈ piece.name?, env name = env' name) : piece.fill env = piece.fill env' := by
  cases piece with
  | literal c => rfl
  | reference name fallback => simp only [Piece.fill, h name rfl]

/-- Only the variables that a text refers to matter. -/
theorem expand_eq_of_agree {env env' : Environment} {t : Text}
    (h : ∀ name ∈ references t, env name = env' name) : expand env t = expand env' t := by
  have go : ∀ ps : List Piece, (∀ name ∈ ps.filterMap Piece.name?, env name = env' name) →
      fillAll env ps = fillAll env' ps := by
    intro ps hps
    induction ps with
    | nil => rfl
    | cons p ps ih =>
      simp only [fillAll]
      rw [fill_eq_of_agree fun name hn => hps name (List.mem_filterMap.2 ⟨p, by simp, hn⟩),
        ih fun name hn => hps name (by
          obtain ⟨q, hq, hqn⟩ := List.mem_filterMap.1 hn
          exact List.mem_filterMap.2 ⟨q, by simp [hq], hqn⟩)]
  exact go _ h

/-- Without a `$` a text is its own expansion. -/
theorem pieces_of_not_mem {t : Text} (h : '$' ∉ t) : pieces t = t.map .literal := by
  induction t with
  | nil => rw [pieces, List.map_nil]
  | cons c t ih =>
    simp only [List.mem_cons, not_or] at h
    have hn : next c t = (.literal c, t) := if_pos (Ne.symm h.1)
    rw [pieces, hn, List.map_cons]
    exact congrArg _ (ih h.2)

end Expansion
end MermaidPress
