import Variability.Decimal.Rounding

/-! A finite double as an exact number: a sign, a significand and a power of
two. Everything that prints, counts or compares exactly starts from here. -/
namespace Variability.Decimal

/-- The number `± significand * 2 ^ exponent`. -/
structure Binary64 where
  negative : Bool
  significand : Nat
  exponent : Int
  deriving DecidableEq, Repr

/-- The biased exponent, eleven bits above the 52 of the fraction. -/
def biasedExponent (x : Float) : Nat := x.toBits.toNat / twoTo 52 % twoTo 11

def isFinite (x : Float) : Bool := biasedExponent x != 2047

def Binary64.ofFloat (x : Float) : Binary64 :=
  let bits := x.toBits.toNat
  let biased := biasedExponent x
  let fraction := bits % twoTo 52
  { negative := bits / twoTo 63 == 1
    significand := if biased == 0 then fraction else twoTo 52 + fraction
    exponent := (max biased 1 : Nat) - 1075 }

def Binary64.floor (x : Binary64) : Int :=
  let signed : Int := if x.negative then -x.significand else x.significand
  if 0 ≤ x.exponent then signed * twoTo x.exponent.toNat
  else signed.fdiv (twoTo (-x.exponent).toNat)

def Binary64.ceil (x : Binary64) : Int :=
  -Binary64.floor { x with negative := !x.negative }

/-- The double nearest to a natural number, as a natural number. -/
def roundToBinary64 (n : Nat) : Nat :=
  let unit := twoTo (n.log2 - 52)
  roundDiv .toEven n unit * unit

end Variability.Decimal
