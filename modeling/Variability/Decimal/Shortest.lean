import Variability.Decimal.Binary64

/-! The shortest decimal that reads back as a given double. A decimal reads
back when it lies in the interval of reals that round to the double; for each
number of digits only the two neighbours of the value on that decimal grid can
do so, and of two that do the nearer is taken. -/
namespace Variability.Decimal

/-- The number `significand * 10 ^ exponent`. -/
structure Digits where
  significand : Nat
  exponent : Int
  deriving DecidableEq, Repr

def digitCount (n : Nat) : Nat :=
  (Nat.toDigits 10 n).length

def Digits.leading (d : Digits) : Int :=
  d.exponent + digitCount d.significand - 1

/-- A positive number `value / den` and the reals that round to it: those
between `(value - below) / den` and `(value + above) / den`, with the ends or
without them. -/
structure Interval where
  value : Nat
  below : Nat
  above : Nat
  den : Nat
  closed : Bool
  deriving Repr

/-- The double below a power of two is half as far away as the one above it.
Quarter units keep both distances whole. -/
def Interval.ofBinary64 (x : Binary64) : Interval :=
  let scale := twoTo (x.exponent - 2).toNat
  let narrow := x.significand == twoTo 52 && -1074 < x.exponent
  { value := 4 * x.significand * scale
    below := (if narrow then 1 else 2) * scale
    above := 2 * scale
    den := twoTo (2 - x.exponent).toNat
    closed := x.significand % 2 == 0 }

/-- Whether `num / (scale * den)` lies inside. -/
def Interval.holds (i : Interval) (num scale : Nat) : Bool :=
  let low := (i.value - i.below) * scale
  let high := (i.value + i.above) * scale
  if i.closed then low ≤ num && num ≤ high else low < num && num < high

def Interval.leading (i : Interval) : Int :=
  let guess : Int := (digitCount i.value : Int) - digitCount i.den
  if i.den * tenTo guess.toNat ≤ i.value * tenTo (-guess).toNat then guess else guess - 1

/-- The multiple of `10 ^ exponent` that reads back, if one of the two next to
the value does. -/
def Interval.onGrid (i : Interval) (tie : Tie) (exponent : Int) : Option Digits :=
  -- value / den against k * 10 ^ exponent, both over one denominator
  let unit := i.den * tenTo exponent.toNat
  let scale := tenTo (-exponent).toNat
  let down := i.value * scale / unit
  let near := roundDiv tie (i.value * scale) unit
  let far := if near == down then down + 1 else down
  if i.holds (near * unit) scale then some ⟨near, exponent⟩
  else if i.holds (far * unit) scale then some ⟨far, exponent⟩
  else none

/-- Drops up to `fuel` trailing zeros. -/
def dropZeros : Nat → Digits → Digits
  | 0, d => d
  | fuel + 1, d =>
    if d.significand % 10 == 0 then dropZeros fuel ⟨d.significand / 10, d.exponent + 1⟩ else d

/-- The fewest digits that read back; seventeen always do. -/
def shortest (tie : Tie) (x : Binary64) : Digits :=
  if x.significand == 0 then ⟨0, 0⟩
  else
    let i := Interval.ofBinary64 x
    let grids := (List.range 17).map fun n : Nat => i.leading - n
    match grids.findSome? (i.onGrid tie) with
    | some d => dropZeros 17 d
    | none => ⟨0, 0⟩

end Variability.Decimal
