/-
Spans of time, counted in nanoseconds, and their text in seconds.
-/
import MermaidPress.Decimal.Layout

namespace MermaidPress

/-- A span of time. -/
structure Duration where
  nanoseconds : Nat
  deriving DecidableEq, Repr

namespace Duration

def ofMilliseconds (n : Nat) : Duration := ⟨n * 1000000⟩

def ofSeconds (n : Nat) : Duration := ⟨n * 1000000000⟩

/-- The whole milliseconds of a span. -/
def milliseconds (d : Duration) : Nat := d.nanoseconds / 1000000

/-- The span in seconds: the whole seconds as a double, plus the rest as one. -/
def seconds (d : Duration) : Float :=
  (UInt64.ofNat (d.nanoseconds / 1000000000)).toFloat +
    (UInt64.ofNat (d.nanoseconds % 1000000000)).toFloat / 1000000000.0

/-- Seconds are always positional, whole ones have no point, and a tie goes up. -/
def layout : Decimal.Layout where
  positional _ := true
  wholeSuffix := []
  exponentSign := []
  tie := .up

/-- The seconds of a span as text. -/
def secondsText (d : Duration) : Text := layout.writeFloat d.seconds

end Duration
end MermaidPress
