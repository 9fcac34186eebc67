/-
The fewest decimal digits that read back as a given double. A finite double is a mantissa
times a power of two; all reals between the midpoints to its two neighbours read back as
it, the midpoints themselves where the mantissa is even. For one digit, two digits and so
on the two decimals next to the double are tried; the first that lies in that range wins,
of two the nearer, and of two equally near the one that a format prefers.
-/

namespace MermaidPress.Decimal

/-- A positive double without its sign: `mantissa` times two to the `exponent`. -/
structure Binary where
  mantissa : Nat
  exponent : Int
  /-- Whether the neighbour below is only half as far away as the one above. -/
  narrowBelow : Bool
  deriving DecidableEq, Repr

/-- The parts of a finite double. -/
def Binary.ofFloat (x : Float) : Binary :=
  let bits : Nat := x.toBits.toNat
  let fraction : Nat := bits % Nat.pow 2 52
  let biased : Nat := bits / Nat.pow 2 52 % Nat.pow 2 11
  if biased = 0 then { mantissa := fraction, exponent := -1074, narrowBelow := false }
  else {
    mantissa := fraction + Nat.pow 2 52
    exponent := (biased : Int) - 1075
    narrowBelow := fraction = 0 && biased > 1 }

/-- Which of two decimals wins that are equally near. -/
inductive Tie
  | even
  /-- The larger one. -/
  | up
  deriving DecidableEq, Repr

/-- Digits, read as a whole number, times ten to the `exponent`. -/
structure Digits where
  digits : Nat
  exponent : Int
  deriving DecidableEq, Repr

/-- The power of ten at or below the quotient of two positive numbers. -/
def magnitude (numerator denominator : Nat) : Int :=
  let guess : Int := (Nat.toDigits 10 numerator).length - (Nat.toDigits 10 denominator).length
  if denominator * Nat.pow 10 guess.toNat ≤ numerator * Nat.pow 10 (-guess).toNat then guess
  else guess - 1

/-- The digits without the zeros at their end; `fuel` bounds how many there are. -/
def Digits.trimZeros : Nat → Digits → Digits
  | 0, d => d
  | fuel + 1, d =>
    if d.digits % 10 = 0 && d.digits ≠ 0 then
      trimZeros fuel { digits := d.digits / 10, exponent := d.exponent + 1 }
    else d

/-- The decimal with the last digit at ten to the `place` that reads back as `b`, if there
is one: the nearer of the two next to it. -/
def Binary.onGrid? (b : Binary) (tie : Tie) (place : Int) : Option Digits :=
  -- everything in quarters of the last bit of the mantissa
  let quarter := b.exponent - 2
  let scale := Nat.pow 2 quarter.toNat * Nat.pow 10 (-place).toNat
  let unit := Nat.pow 2 (-quarter).toNat * Nat.pow 10 place.toNat
  let value := 4 * b.mantissa * scale
  let low := (4 * b.mantissa - (if b.narrowBelow then 1 else 2)) * scale
  let high := (4 * b.mantissa + 2) * scale
  let fits (n : Nat) : Bool :=
    if b.mantissa % 2 = 0 then low ≤ n * unit && n * unit ≤ high
    else low < n * unit && n * unit < high
  let below := value / unit
  let above := below + 1
  match fits below, fits above with
  | false, false => none
  | true, false => some { digits := below, exponent := place }
  | false, true => some { digits := above, exponent := place }
  | true, true =>
    let chosen :=
      if 2 * value < (below + above) * unit then below
      else if (below + above) * unit < 2 * value then above
      else if tie = .even ∧ below % 2 = 0 then below
      else above
    some { digits := chosen, exponent := place }

/-- The fewest digits that read back as `b`. Seventeen always do. -/
def Binary.shortest (b : Binary) (tie : Tie) : Digits :=
  if b.mantissa = 0 then { digits := 0, exponent := 0 }
  else
    let top := magnitude (b.mantissa * Nat.pow 2 b.exponent.toNat) (Nat.pow 2 (-b.exponent).toNat)
    let found := (List.range 17).findSome? fun (more : Nat) => b.onGrid? tie (top - more)
    (found.getD { digits := b.mantissa, exponent := 0 }).trimZeros 20

end MermaidPress.Decimal
