import Variability.Decimal.Shortest

/-! How a number is laid out as text: with as few digits as read back, in
positional or scientific form, or with a fixed number of places. -/
namespace Variability.Decimal

/-- The decisions of one text form for doubles. -/
structure Layout where
  /-- The leading digit's exponents that are written out in full, all when absent. -/
  positional : Option (Int × Int)
  /-- Whole numbers keep one zero after the point. -/
  keepsPoint : Bool
  /-- Which of two equally near shortest decimals is taken. -/
  tie : Tie

def zeros (n : Nat) : String :=
  String.ofList (List.replicate n '0')

/-- Written out in full, the point where it belongs. -/
def positionalText (keepsPoint : Bool) (d : Digits) : String :=
  let digits := toString d.significand
  if 0 ≤ d.exponent then
    digits ++ zeros d.exponent.toNat ++ (if keepsPoint then ".0" else "")
  else
    let places := (-d.exponent).toNat
    let padded := (zeros (places + 1 - digits.length) ++ digits).toList
    let whole := padded.length - places
    String.ofList (padded.take whole) ++ "." ++ String.ofList (padded.drop whole)

/-- One digit, the point and the others when there are more, then the power. -/
def scientificText (d : Digits) : String :=
  let power := d.leading
  let mantissa :=
    match (toString d.significand).toList with
    | lead :: next :: rest => String.ofList (lead :: '.' :: next :: rest)
    | digits => String.ofList digits
  mantissa ++ "e" ++ (if power < 0 then "-" else "+") ++ toString power.natAbs

/-- The sign is written for negative zero too. What is no finite number is
written by name. -/
def signedText (x : Float) (magnitude : Binary64 → String) : String :=
  let exact := Binary64.ofFloat x
  let sign := if exact.negative then "-" else ""
  if isFinite x then sign ++ magnitude exact
  else if exact.significand == twoTo 52 then sign ++ "inf"
  else "NaN"

def Layout.isPositional (layout : Layout) (leading : Int) : Bool :=
  match layout.positional with
  | some (low, high) => low ≤ leading && leading ≤ high
  | none => true

def Layout.write (layout : Layout) (x : Float) : String :=
  signedText x fun exact =>
    let d := shortest layout.tie exact
    if layout.isPositional d.leading then positionalText layout.keepsPoint d
    else scientificText d

def fixedPlaces (tie : Tie) (places : Nat) (x : Float) : String :=
  signedText x fun exact =>
    let num := exact.significand * twoTo exact.exponent.toNat * tenTo places
    let rounded := roundDiv tie num (twoTo (-exact.exponent).toNat)
    positionalText false ⟨rounded, -places⟩

end Variability.Decimal
