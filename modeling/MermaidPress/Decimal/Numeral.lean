/-
Reading numerals: whole numbers, and decimals with fraction and exponent as doubles. A
decimal is read to the nearest double; far outside the range of doubles that is zero or
infinity, found without computing the power of ten.
-/
import MermaidPress.Text.Basic

namespace MermaidPress.Decimal

/-- Infinity. -/
def infinity : Float := 1.0 / 0.0

/-- The double nearest to `mantissa` times ten to the `exponent`. -/
def nearest (mantissa : Nat) (exponent : Int) : Float :=
  let top : Int := (Nat.toDigits 10 mantissa).length + exponent
  if mantissa = 0 || top < -330 then 0.0
  else if top > 330 then infinity
  else Float.ofScientific mantissa (exponent < 0) exponent.natAbs

/-- The value of digits in a base of at most sixteen. -/
def valueOf (base : Nat) (ds : Text) : Nat :=
  ds.foldl (fun n c =>
    let digit :=
      if c.isDigit then c.toNat - '0'.toNat
      else if 'a' ≤ c && c ≤ 'f' then c.toNat - 'a'.toNat + 10
      else c.toNat - 'A'.toNat + 10
    n * base + digit) 0

/-- A whole number in digits; none for an empty text or any other character. -/
def natural? (t : Text) : Option Nat :=
  if !t.isEmpty && t.all Char.isDigit then some (valueOf 10 t) else none

/-- A sign at the front, and the text behind it. -/
def splitSign : Text → Bool × Text
  | '-' :: t => (true, t)
  | '+' :: t => (false, t)
  | t => (false, t)

/-- An exponent with its sign. -/
def exponent? (t : Text) : Option Int :=
  let (negative, ds) := splitSign t
  (natural? ds).map fun n => if negative then -(n : Int) else n

/-- A decimal without sign: digits with at most one point among or beside them, and at most
one exponent behind `e` or `E`. -/
def unsigned? (t : Text) : Option Float :=
  let whole := t.takeWhile Char.isDigit
  let (fraction, rest) :=
    match t.dropWhile Char.isDigit with
    | '.' :: u => (u.takeWhile Char.isDigit, u.dropWhile Char.isDigit)
    | u => ([], u)
  let ds := whole ++ fraction
  let value (power : Int) := nearest (valueOf 10 ds) (power - fraction.length)
  if ds.isEmpty then none
  else
    match rest with
    | [] => some (value 0)
    | c :: e => if c == 'e' || c == 'E' then (exponent? e).map value else none

/-- The double that a text names: a decimal, or infinity or no number by one of their names,
in any case of letters, with a sign in front or not. -/
def float? (t : Text) : Option Float :=
  let (negative, u) := splitSign t
  let lower := Text.toLowerAscii u
  let magnitude :=
    if lower = "inf".toList || lower = "infinity".toList then some infinity
    else if lower = "nan".toList then some (0.0 / 0.0)
    else unsigned? u
  magnitude.map fun x => if negative then -x else x

/-- A number of one byte, in digits with a sign in front or not; zero may have either. -/
def byte? (t : Text) : Option UInt8 :=
  let (negative, ds) := splitSign t
  match natural? ds with
  | some n => if n < 256 ∧ (negative → n = 0) then some (UInt8.ofNat n) else none
  | none => none

end MermaidPress.Decimal
