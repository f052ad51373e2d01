import Variability.Decimal.Numeral
import Variability.Text.Blank

/-! How many settings a slider has: the whole numbers between its bounds. -/
namespace Variability

/-- A bound as written on a slider; it counts only as a finite number. -/
def readBound (raw : String) : Option Float :=
  ((Decimal.Numeral.read? (Text.trim raw)).map Decimal.Numeral.toFloat).filter Decimal.isFinite

/-- Counts of settings stop at the largest 64-bit number. -/
def maxCount : Nat := 0xFFFFFFFFFFFFFFFF

def saturate (n : Nat) : Nat := min n maxCount

/-- The number of whole numbers from `low` to `high`, if there is one. The
distance and the count are doubles, so above 2^53 they are rounded. -/
def sliderStates (low high : Float) : Option Nat :=
  let first := (Decimal.Binary64.ofFloat low).ceil
  let last := (Decimal.Binary64.ofFloat high).floor
  if last < first then none
  else
    let distance := Decimal.roundToBinary64 (last - first).toNat
    some (saturate (Decimal.roundToBinary64 (distance + 1)))

end Variability
