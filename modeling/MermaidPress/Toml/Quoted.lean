/-
Strings in quotes. Double quotes admit escapes, single quotes do not; three quotes admit
line breaks, drop the one right behind them, and up to two more quotes may stand before the
closing three.
-/
import MermaidPress.Toml.Reader
import MermaidPress.Decimal.Numeral

namespace MermaidPress.Toml

/-- Whether a character is a digit in base sixteen. -/
def isHexDigit (c : Char) : Bool :=
  c.isDigit || ('a' ≤ c && c ≤ 'f') || ('A' ≤ c && c ≤ 'F')

/-- The character with the number that `count` digits in base sixteen give. -/
def codePoint? (count : Nat) (t : Text) : Option Char :=
  let digits := t.take count
  let n := Decimal.valueOf 16 digits
  if digits.length = count ∧ digits.all isHexDigit ∧ n.isValidChar then some (Char.ofNat n)
  else none

/-- The character of a one-letter escape. -/
def escaped? : Char → Option Char
  | 'b' => some '\x08'
  | 't' => some '\t'
  | 'n' => some '\n'
  | 'f' => some '\x0c'
  | 'r' => some '\r'
  | 'e' => some '\x1b'
  | '"' => some '"'
  | '\\' => some '\\'
  | _ => none

/-- The number of digits of a numbered escape. -/
def escapeDigits? : Char → Option Nat
  | 'x' => some 2
  | 'u' => some 4
  | 'U' => some 8
  | _ => none

theorem length_drop_lt (c : Char) (t : Text) (count : Nat) :
    (t.drop count).length < (c :: t).length := by
  rw [List.length_drop, List.length_cons]
  omega

/-- The character of an escape, read behind its backslash. -/
def escape : Reader Char
  | [] => fail .invalidEscape []
  | c :: t =>
    match escaped? c with
    | some d => .ok ⟨d, t, length_lt_cons c t⟩
    | none =>
      match escapeDigits? c with
      | none => fail .invalidEscape (c :: t)
      | some count =>
        match codePoint? count t with
        | some d => .ok ⟨d, t.drop count, length_drop_lt c t count⟩
        | none => fail .invalidEscape (c :: t)

/-- The rest of a string in double quotes. -/
def basicBody (t : Text) : Except Stop (Taken Text t.length) :=
  match t with
  | [] => fail .unclosedString []
  | '"' :: rest => .ok ⟨[], rest, by simp⟩
  | '\\' :: rest => do
    let c ← escape rest
    let body ← basicBody c.rest
    .ok ⟨c.value :: body.value, body.rest, by
      have := c.shorter
      have := body.shorter
      simp only [List.length_cons]
      omega⟩
  | c :: rest =>
    if isPrintable c then do
      let body ← basicBody rest
      .ok ⟨c :: body.value, body.rest, by
        have := body.shorter
        simp only [List.length_cons]
        omega⟩
    else if c = '\n' || c = '\r' then fail .unclosedString (c :: rest)
    else fail .controlCharacter (c :: rest)
termination_by t.length
decreasing_by
  · have := c.shorter
    simp only [List.length_cons]
    omega
  · simp

/-- The rest of a string in single quotes. -/
def literalBody : Reader Text
  | [] => fail .unclosedString []
  | c :: rest =>
    if c = '\'' then .ok ⟨[], rest, by simp⟩
    else if isPrintable c then do
      let body ← literalBody rest
      .ok ⟨c :: body.value, body.rest, by
        have := body.shorter
        simp only [List.length_cons]
        omega⟩
    else if c = '\n' || c = '\r' then fail .unclosedString (c :: rest)
    else fail .controlCharacter (c :: rest)

/-- The end of a string in three quotes: the quotes that still belong to it, and the rest. -/
def closing? (quote : Char) (t : Text) : Option (Taken Text t.length) :=
  let run := (t.takeWhile (· = quote)).length
  if _h : run < 3 then none
  else
    some ⟨List.replicate (min run 5 - 3) quote, t.drop (min run 5), by
      have : run ≤ t.length := (List.takeWhile_sublist _).length_le
      rw [List.length_drop]
      omega⟩

/-- The text behind blanks and line breaks, where a backslash may end a line: at least one
line break has to be there. -/
def afterFold? (t : Text) : Option (Rest t.length) :=
  let ⟨blanks, hb⟩ := skipBlanks t
  match afterLineEnd? blanks with
  | none => none
  | some taken =>
    match afterFold? taken.rest with
    | some ⟨rest, hr⟩ => some ⟨rest, by have := taken.shorter; omega⟩
    | none =>
      let ⟨rest, hr⟩ := skipBlanks taken.rest
      some ⟨rest, by have := taken.shorter; omega⟩
termination_by t.length
decreasing_by
  have := taken.shorter
  omega

/-- The rest of a string in three quotes. -/
def longBody (quote : Char) (t : Text) : Except Stop (Taken Text t.length) :=
  match closing? quote t with
  | some taken => .ok taken
  | none =>
    match t with
    | [] => fail .unclosedString []
    | c :: rest =>
      if c = '\\' ∧ quote = '"' then
        match afterFold? rest with
        | some ⟨folded, hf⟩ => do
          let body ← longBody quote folded
          .ok (body.within (by simp only [List.length_cons]; omega))
        | none => do
          let d ← escape rest
          let body ← longBody quote d.rest
          .ok ⟨d.value :: body.value, body.rest, by
            have := d.shorter
            have := body.shorter
            simp only [List.length_cons]
            omega⟩
      else if isPrintable c || (afterLineEnd? (c :: rest)).isSome then do
        let body ← longBody quote rest
        .ok ⟨c :: body.value, body.rest, by
          have := body.shorter
          simp only [List.length_cons]
          omega⟩
      else fail .controlCharacter (c :: rest)
termination_by t.length
decreasing_by
  · simp only [List.length_cons]
    omega
  · have := d.shorter
    simp only [List.length_cons]
    omega
  · simp

/-- A string in quotes of one line, read behind its opening quote. -/
def shortBody (quote : Char) : Reader Text :=
  if quote = '"' then basicBody else literalBody

/-- A string in quotes; in three quotes it may run over lines. -/
def quoted (quote : Char) : Reader Text
  | a :: b :: c :: rest =>
    if a = quote ∧ b = quote ∧ c = quote then
      let body : Except Stop (Taken Text rest.length) :=
        match afterLineEnd? rest with
        | some taken => (longBody quote taken.rest).map
            (Taken.within · (Nat.le_of_lt taken.shorter))
        | none => longBody quote rest
      body.map (Taken.within · (by simp only [List.length_cons]; omega))
    else
      (shortBody quote (b :: c :: rest)).map
        (Taken.within · (by simp only [List.length_cons]; omega))
  | _ :: rest =>
    (shortBody quote rest).map (Taken.within · (by simp only [List.length_cons]; omega))
  | [] => fail .unclosedString []

end MermaidPress.Toml
