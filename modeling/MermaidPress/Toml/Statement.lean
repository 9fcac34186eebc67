/-
The lines of a document: keys with their values, and headers. Arrays and tables in braces
may run over lines and may be nested up to a limit; a table in braces is put together as it
is read.
-/
import MermaidPress.Toml.Scalar

namespace MermaidPress.Toml

/-- One part of a key. Without quotes not all characters may stand in it. -/
structure Key where
  text : Text
  isBare : Bool
  deriving DecidableEq, Repr

/-- Whether a character may stand in a key without quotes. -/
def isBareKeyChar (c : Char) : Bool := c.isAlphanum || c = '-' || c = '_'

/-- Whether a key is written as it may be. -/
def Key.isValid (key : Key) : Bool := !key.isBare || key.text.all isBareKeyChar

/-- Dotted keys: the path to a table and a key in it. -/
structure KeyPath where
  path : List Key
  key : Key
  deriving DecidableEq, Repr

/-- Whether all keys of a path are written as they may be. -/
def KeyPath.isValid (keys : KeyPath) : Bool := keys.path.all Key.isValid && keys.key.isValid

/-- The texts of the keys on the way. -/
def KeyPath.names (keys : KeyPath) : List Text := keys.path.map Key.text

/-- The keys of a path, the last one included. -/
def KeyPath.allNames (keys : KeyPath) : List Text := keys.names ++ [keys.key.text]

/-- Whether a character ends a word. -/
def endsWord (c : Char) : Bool := " \t\n\r=.,[]\x7b\x7d#\"'".toList.contains c

/-- Whether a text begins with three quotes. -/
def beginsLong (t : Text) : Bool :=
  (Text.after? "\"\"\"".toList t).isSome || (Text.after? "\'\'\'".toList t).isSome

/-- One part of a key. Strings in three quotes are none. -/
def simpleKey : Reader Key
  | [] => fail .missingKey []
  | c :: rest =>
    if beginsLong (c :: rest) then fail .longKey (c :: rest)
    else if c = '"' || c = '\'' then
      (quoted c (c :: rest)).map (Taken.map fun text => { text, isBare := false })
    else if endsWord c then fail .missingKey (c :: rest)
    else
      .ok ⟨{ text := c :: rest.takeWhile fun d => !endsWord d, isBare := true },
        rest.dropWhile fun d => !endsWord d, Nat.lt_succ_of_le (length_dropWhile_le _ rest)⟩

/-- How many parts a key may have, how many arrays and tables may be nested. -/
def deepest : Nat := 80

/-- Keys of any number of parts, with the blanks behind them. -/
def keyParts (t : Text) : Except Stop (Taken KeyPath t.length) := do
  let first ← simpleKey t
  let behind := skipBlanks first.rest
  have hfirst := first.shorter
  have hbehind := behind.property
  match after? '.' behind.val with
  | none => .ok ⟨{ path := [], key := first.value }, behind.val, by omega⟩
  | some dot =>
    let place := skipBlanks dot.rest
    have hdot := dot.shorter
    let others ← keyParts place.val
    .ok ⟨{ others.value with path := first.value :: others.value.path }, others.rest, by
      have := place.property
      have := others.shorter
      omega⟩
termination_by t.length
decreasing_by
  have := (skipBlanks dot.rest).property
  omega

/-- Dotted keys, with the blanks behind them. -/
def keyPath : Reader KeyPath := fun t => do
  let keys ← keyParts t
  if keys.value.path.length < deepest then .ok keys else fail .tooDeep t

/-- The items of an array, up to its bracket. A comma may follow the last one. -/
def items (value : Reader Value) (t : Text) : Except Stop (Taken (List Value) t.length) := do
  let front ← skipLines t
  have hfront := front.property
  match after? ']' front.val with
  | some closed => .ok ⟨[], closed.rest, by have := closed.shorter; omega⟩
  | none =>
    if front.val.isEmpty then fail .unclosedArray [] else
    let first ← value front.val
    let behind ← skipLines first.rest
    have hfirst := first.shorter
    have hbehind := behind.property
    match after? ',' behind.val with
    | some comma =>
      have hcomma := comma.shorter
      let others ← items value comma.rest
      .ok ⟨first.value :: others.value, others.rest, by have := others.shorter; omega⟩
    | none =>
      match after? ']' behind.val with
      | some closed => .ok ⟨[first.value], closed.rest, by have := closed.shorter; omega⟩
      | none => fail .unclosedArray behind.val
termination_by t.length
decreasing_by omega

/-- A key of a table in braces with its value, added to the entries before. The line may end
on either side of the sign. -/
def member (value : Reader Value) (entries : Entries) : Reader Entries := fun t => do
  let keys ← keyPath t
  let behind ← skipLines keys.rest
  match after? '=' behind.val with
  | none => fail .keyWithoutValue behind.val
  | some sign =>
    let place ← skipLines sign.rest
    let taken ← value place.val
    if !keys.value.isValid then fail .invalidKey t
    else
      match entries.assign .inline keys.value.names keys.value.key.text taken.value with
      | .error fault => fail fault t
      | .ok (_, more) => .ok ⟨more, taken.rest, by
          have := keys.shorter
          have := behind.property
          have := sign.shorter
          have := place.property
          have := taken.shorter
          omega⟩

/-- The entries of a table in braces, added to those before, up to its brace. A comma may
follow the last one. -/
def members (value : Reader Value) (entries : Entries) (t : Text) :
    Except Stop (Taken Entries t.length) := do
  let front ← skipLines t
  have hfront := front.property
  match after? '}' front.val with
  | some closed => .ok ⟨entries, closed.rest, by have := closed.shorter; omega⟩
  | none =>
    if front.val.isEmpty then fail .unclosedInlineTable [] else
    let first ← member value entries front.val
    let behind ← skipLines first.rest
    have hfirst := first.shorter
    have hbehind := behind.property
    match after? ',' behind.val with
    | some comma =>
      have hcomma := comma.shorter
      let others ← members value first.value comma.rest
      .ok (others.within (by omega))
    | none =>
      match after? '}' behind.val with
      | some closed => .ok ⟨first.value, closed.rest, by have := closed.shorter; omega⟩
      | none => fail .unclosedInlineTable behind.val
termination_by t.length
decreasing_by omega

/-- A value that holds no others. -/
def simple (t : Text) : Except Stop (Taken Value t.length) :=
  match t with
  | '"' :: rest => (quoted '"' ('"' :: rest)).map (Taken.map .string)
  | '\'' :: rest => (quoted '\'' ('\'' :: rest)).map (Taken.map .string)
  | u => scalar u

/-- A value in which arrays and tables are nested at most `depth` times. -/
def value : Nat → Reader Value
  | depth, '[' :: rest =>
    match depth with
    | 0 => fail .tooDeep ('[' :: rest)
    | depth + 1 =>
      (items (value depth) rest).map fun taken =>
        (taken.map .array).within (Nat.le_succ _)
  | depth, '{' :: rest =>
    match depth with
    | 0 => fail .tooDeep ('{' :: rest)
    | depth + 1 =>
      (members (value depth) [] rest).map fun taken =>
        (taken.map (.table .inline)).within (Nat.le_succ _)
  | _, t => simple t

/-- What a line of a document says. -/
inductive Statement
  | blank
  | assign (keys : KeyPath) (value : Value)
  | header (keys : KeyPath)
  /-- A header in double brackets. -/
  | tablesHeader (keys : KeyPath)

/-- The end of the line behind something read. -/
def endAfter {α : Type} {n : Nat} (taken : Taken α n) : Except Stop (Taken α n) := do
  let rest ← endLine taken.rest
  .ok ⟨taken.value, rest.val, by
    have := taken.shorter
    have := rest.property
    omega⟩

/-- Keys behind an opening bracket, and the text `close` behind them. -/
def headerKeys (close : Text) (unclosed : Fault) : Reader KeyPath := fun t => do
  let front := skipBlanks t
  let keys ← keyPath front.val
  match afterWord? close keys.rest with
  | none => fail unclosed keys.rest
  | some closed => endAfter ⟨keys.value, closed.val, by
      have := front.property
      have := keys.shorter
      have := closed.property
      omega⟩

/-- A line that gives a key its value. -/
def assignment : Reader Statement := fun t => do
  let keys ← keyPath t
  match after? '=' keys.rest with
  | none => fail .keyWithoutValue keys.rest
  | some sign =>
    let place := skipBlanks sign.rest
    let taken ← value deepest place.val
    endAfter ⟨.assign keys.value taken.value, taken.rest, by
      have := keys.shorter
      have := sign.shorter
      have := place.property
      have := taken.shorter
      omega⟩

/-- A header, read behind its first bracket. -/
def header : Reader Statement := fun t =>
  match after? '[' t with
  | some second =>
    (headerKeys [']', ']'] .unclosedTables second.rest).map fun taken =>
      (taken.map .tablesHeader).within (Nat.le_of_lt second.shorter)
  | none => (headerKeys [']'] .unclosedTable t).map (Taken.map .header)

/-- Whether nothing but blanks and a comment stands before the end of the line. -/
def isBlankLine (t : Text) : Bool :=
  let line := (skipComment (skipBlanks t).val).val
  line.length < (skipBlanks t).val.length || line.isEmpty || (afterLineEnd? line).isSome

/-- One line, or more where a value runs over lines. -/
def statement : Reader Statement := fun t =>
  if isBlankLine t then do
    let rest ← endLine t
    if h : rest.val.length < t.length then .ok ⟨.blank, rest.val, h⟩ else fail .trailingText t
  else
    let front := skipBlanks t
    match after? '[' front.val with
    | some bracket =>
      (header bracket.rest).map fun taken =>
        taken.within (by
          have := front.property
          have := bracket.shorter
          omega)
    | none => (assignment front.val).map fun taken => taken.within front.property

/-- A statement with its place, told by the number of characters from there to the end. -/
structure Placed where
  statement : Statement
  left : Nat

/-- The statements of a document. -/
def statements (t : Text) : Except Stop (List Placed) :=
  if t.isEmpty then .ok []
  else do
    let first ← statement t
    let others ← statements first.rest
    .ok (⟨first.value, t.length⟩ :: others)
termination_by t.length
decreasing_by exact first.shorter

end MermaidPress.Toml
