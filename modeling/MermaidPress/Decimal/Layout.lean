/-
How the digits of a double are laid out as text: positional or with an exponent. Formats
differ in a few decisions only, which a `Layout` holds.
-/
import MermaidPress.Decimal.Shortest
import MermaidPress.Text.Basic

namespace MermaidPress.Decimal

/-- The decisions of a number format. -/
structure Layout where
  /-- Whether a number is written positionally when its first digit stands at this power
  of ten. -/
  positional : Int → Bool
  /-- What stands behind a positional number without fraction. -/
  wholeSuffix : Text
  /-- The sign of an exponent that is not negative. -/
  exponentSign : Text
  /-- Which digits are taken where two choices are equally near. -/
  tie : Tie

private def zeros (n : Nat) : Text := List.replicate n '0'

/-- The digits in a layout. -/
def Layout.write (layout : Layout) (d : Digits) : Text :=
  let ds := Nat.toDigits 10 d.digits
  let count : Int := ds.length
  let point := count + d.exponent
  if d.digits = 0 then '0' :: layout.wholeSuffix
  else if layout.positional (point - 1) then
    if 0 ≤ d.exponent then ds ++ zeros d.exponent.toNat ++ layout.wholeSuffix
    else if 0 < point then ds.take point.toNat ++ '.' :: ds.drop point.toNat
    else '0' :: '.' :: zeros (-point).toNat ++ ds
  else
    let power := point - 1
    let fraction := match ds.drop 1 with
      | [] => []
      | rest => '.' :: rest
    let sign := if power < 0 then ['-'] else layout.exponentSign
    ds.take 1 ++ fraction ++ 'e' :: sign ++ Nat.toDigits 10 power.natAbs

/-- A finite double in a layout, with the fewest digits that read back. -/
def Layout.writeFloat (layout : Layout) (x : Float) : Text :=
  let sign := if x.toBits.toNat / Nat.pow 2 63 = 1 then ['-'] else []
  sign ++ layout.write ((Binary.ofFloat x).shortest layout.tie)

end MermaidPress.Decimal
