import Variability.Decimal.Shortest

/-! Reading decimal numerals: an optional sign, digits with at most one point
among or around them, and an optional power of ten. -/
namespace Variability.Decimal

/-- A numeral as written: `± significand * 10 ^ exponent`. -/
structure Numeral where
  negative : Bool
  value : Digits
  deriving DecidableEq, Repr

def digitValue (c : Char) : Nat := c.toNat - '0'.toNat

def digitsValue (cs : List Char) : Nat :=
  cs.foldl (fun n c => 10 * n + digitValue c) 0

def splitSign : List Char → Bool × List Char
  | '-' :: rest => (true, rest)
  | '+' :: rest => (false, rest)
  | cs => (false, cs)

/-- A power of ten stops growing once it is past 65535: no double depends on
more of it. -/
def powerValue (cs : List Char) : Nat :=
  cs.foldl (fun n c => if n < 65536 then 10 * n + digitValue c else n) 0

/-- The power after the digits; none at all counts as zero. -/
def readPower : List Char → Option Int
  | [] => some 0
  | mark :: rest =>
    if mark != 'e' && mark != 'E' then none
    else
      let (negative, digits) := splitSign rest
      if digits.isEmpty || !digits.all Char.isDigit then none
      else
        let power : Int := powerValue digits
        some (if negative then -power else power)

def Numeral.read? (s : String) : Option Numeral :=
  let (negative, cs) := splitSign s.toList
  let whole := cs.takeWhile Char.isDigit
  let rest := cs.dropWhile Char.isDigit
  let (places, rest) :=
    match rest with
    | '.' :: rest => (rest.takeWhile Char.isDigit, rest.dropWhile Char.isDigit)
    | _ => ([], rest)
  if whole.isEmpty && places.isEmpty then none
  else
    (readPower rest).map fun power =>
      ⟨negative, digitsValue (whole ++ places), power - places.length⟩

def infinity : Float := Float.ofBits 0x7ff0000000000000

/-- The nearest double, infinite past the largest. Numbers far outside the range
of doubles are told apart by their leading digit, without their powers of ten. -/
def Numeral.toFloat (n : Numeral) : Float :=
  let d := n.value
  let magnitude :=
    if d.significand == 0 || d.leading < -330 then 0.0
    else if 310 < d.leading then infinity
    else Float.ofScientific d.significand (d.exponent < 0) d.exponent.natAbs
  if n.negative then -magnitude else magnitude

end Variability.Decimal
