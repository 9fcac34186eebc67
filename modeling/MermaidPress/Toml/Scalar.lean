/-
Values in one word: truth values, whole numbers in four bases, decimals, and dates and times.
Underscores may stand between digits. Whole numbers that do not fit into 128 bits, decimals
that do not fit into doubles and some words that only begin like whole numbers are numbers all
the same, but nothing can be made of them.
-/
import MermaidPress.Toml.Quoted
import MermaidPress.Toml.Value

namespace MermaidPress.Toml

/-- The characters that words are made of: all but blanks, line ends and the marks that
separate values. -/
def isWordChar (c : Char) : Bool := !" \t\n\r=,[]\x7b\x7d#".toList.contains c

/-- Digits without the underscores between them; none where an underscore has no digit on
one of its sides, or no digit is there at all. -/
def digits? (isDigit : Char → Bool) : Text → Option Text
  | [] => none
  | [c] => if isDigit c then some [c] else none
  | c :: '_' :: rest => if isDigit c then (digits? isDigit rest).map (c :: ·) else none
  | c :: rest => if isDigit c then (digits? isDigit rest).map (c :: ·) else none

/-- Decimal digits that do not begin with a needless zero. -/
def plainDigits? (t : Text) : Option Text :=
  match digits? Char.isDigit t with
  | some ('0' :: _ :: _) => none
  | other => other

/-- A whole number behind the mark of its base. -/
def based? : Text → Option Nat
  | '0' :: 'x' :: t => (digits? isHexDigit t).map (Decimal.valueOf 16)
  | '0' :: 'o' :: t => (digits? (fun c => '0' ≤ c && c ≤ '7') t).map (Decimal.valueOf 8)
  | '0' :: 'b' :: t => (digits? (fun c => c = '0' || c = '1') t).map (Decimal.valueOf 2)
  | _ => none

/-- A whole number. -/
def integer? (word : Text) : Option Int :=
  match based? word with
  | some n => some n
  | none =>
    let (negative, t) := Decimal.splitSign word
    (plainDigits? t).map fun ds =>
      let n : Int := Decimal.valueOf 10 ds
      if negative then -n else n

/-- The exponent of a decimal, without its underscores. -/
def exponent? (t : Text) : Option Text :=
  match t with
  | '+' :: ds => digits? Char.isDigit ds
  | '-' :: ds => (digits? Char.isDigit ds).map ('-' :: ·)
  | ds => digits? Char.isDigit ds

/-- The text behind the sign of a decimal, if it has one, without underscores; it has a
fraction or an exponent. -/
def decimal? (t : Text) : Option Text :=
  let isMark (c : Char) : Bool := c = 'e' || c = 'E'
  let mantissa := t.takeWhile fun c => !isMark c
  let plain : Option Text :=
    match Text.upTo? '.' mantissa with
    | none => plainDigits? mantissa
    | some (whole, fraction) => do
      some ((← plainDigits? whole) ++ '.' :: (← digits? Char.isDigit fraction))
  match t.dropWhile fun c => !isMark c with
  | [] => if mantissa.contains '.' then plain else none
  | _ :: power => do some ((← plain) ++ 'e' :: (← exponent? power))

/-- A decimal, or infinity or no number by their names. -/
def float? (word : Text) : Option Float :=
  let (negative, t) := Decimal.splitSign word
  let spelled := if t = "inf".toList || t = "nan".toList then some t else decimal? t
  (spelled.bind Decimal.float?).map fun x => if negative then -x else x

/-- A number of exactly `count` digits at the front of a text. -/
def fixed? (count : Nat) (t : Text) : Option (Nat × Text) :=
  let ds := t.take count
  if ds.length = count ∧ ds.all Char.isDigit then some (Decimal.valueOf 10 ds, t.drop count)
  else none

/-- The number of days of a month. -/
def daysOf (year month : Nat) : Nat :=
  if month = 2 then
    if year % 4 = 0 ∧ (year % 100 ≠ 0 ∨ year % 400 = 0) then 29 else 28
  else if month = 4 ∨ month = 6 ∨ month = 9 ∨ month = 11 then 30
  else 31

/-- The text behind a date. -/
def afterDate? (t : Text) : Option Text := do
  let (year, t) ← fixed? 4 t
  let (month, t) ← fixed? 2 (← Text.after? ['-'] t)
  let (day, t) ← fixed? 2 (← Text.after? ['-'] t)
  if 1 ≤ month ∧ month ≤ 12 ∧ 1 ≤ day ∧ day ≤ daysOf year month then some t else none

/-- The text behind an hour and a minute. -/
def afterMinute? (t : Text) : Option Text := do
  let (hour, t) ← fixed? 2 t
  let (minute, t) ← fixed? 2 (← Text.after? [':'] t)
  if hour ≤ 23 ∧ minute ≤ 59 then some t else none

/-- The text behind a fraction of a second, if there is one. -/
def afterFraction? : Text → Option Text
  | '.' :: t =>
    if (t.head?.map Char.isDigit).getD false then some (t.dropWhile Char.isDigit) else none
  | t => some t

/-- The text behind a time. The seconds may be missing. -/
def afterTime? (t : Text) : Option Text := do
  let t ← afterMinute? t
  match t with
  | ':' :: t =>
    let (second, t) ← fixed? 2 t
    if second ≤ 60 then afterFraction? t else none
  | t => some t

/-- The text behind the offset of a time, if there is one. -/
def afterOffset? : Text → Option Text
  | 'Z' :: t => some t
  | 'z' :: t => some t
  | '+' :: t => afterMinute? t
  | '-' :: t => afterMinute? t
  | t => some t

/-- Whether a word is a date, a time, or both with an offset or not. -/
def isMoment (word : Text) : Bool :=
  match afterDate? word with
  | some [] => true
  | some (mark :: t) =>
    (mark = 'T' || mark = 't' || mark = ' ') && (afterTime? t).bind afterOffset? = some []
  | none => afterTime? word = some []

/-- Whether every underscore behind the character `before` stands between two digits in base
sixteen. -/
def separates (before : Char) : Text → Bool
  | [] => before ≠ '_'
  | c :: rest =>
    (c ≠ '_' || isHexDigit before) && (before ≠ '_' || isHexDigit c) && separates c rest

/-- Whether a word only passes for a whole number: it is the mark of a base without digits, or
it begins with digits and an underscore, and nothing in it makes it another kind of value. -/
def passesForInteger (word : Text) : Bool :=
  match (Decimal.splitSign word).2 with
  | [] => false
  | '0' :: mark => word = '0' :: mark && (mark = ['x'] || mark = ['o'] || mark = ['b'])
  | c :: rest =>
    c.isDigit && (rest.dropWhile Char.isDigit).head? = some '_' && separates c rest &&
      rest.all fun d => !" .eE".toList.contains d

/-- The least whole number. -/
def leastInteger : Int := -(Nat.pow 2 127)

/-- The largest whole number. -/
def largestInteger : Int := Nat.pow 2 128 - 1

/-- The value of a word. -/
def valueOfWord (word : Text) : Except Fault Value :=
  if word = "true".toList then .ok (.boolean true)
  else if word = "false".toList then .ok (.boolean false)
  else
    match integer? word with
    | some n =>
      .ok (if leastInteger ≤ n ∧ n ≤ largestInteger then .integer n else .unreadable)
    | none =>
      match float? word with
      | some x =>
        .ok (if x.isInf && !word.contains 'i' then .unreadable else .float x)
      | none =>
        if isMoment word then .ok (.moment word)
        else if passesForInteger word then .ok .unreadable
        else if (word.head?.map Char.isDigit).getD false then .error .invalidNumber
        else .error .unquotedText

/-- The length of the word that goes on with a text, behind a number of blanks. Blanks belong
to a word where a character follows that may begin one: so a date and a time are one word. -/
def wordLength (blanks : Nat) : Text → Nat
  | [] => 0
  | c :: rest =>
    if isBlank c then wordLength (blanks + 1) rest
    else if isWordChar c && (blanks = 0 || !".\"'".toList.contains c) then
      blanks + 1 + wordLength 0 rest
    else 0

/-- A value in one word. -/
def scalar (t : Text) : Except Stop (Taken Value t.length) :=
  let count := wordLength 0 t
  if h : 0 < count ∧ count ≤ t.length then
    match valueOfWord (t.take count) with
    | .ok value => .ok ⟨value, t.drop count, by rw [List.length_drop]; omega⟩
    | .error fault => fail fault t
  else fail .unquotedText t

end MermaidPress.Toml
