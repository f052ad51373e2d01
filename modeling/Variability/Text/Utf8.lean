/-! Texts as UTF-8 bytes. A byte string that is no text still has a longest
prefix that is one; its length tells where decoding stopped. -/
namespace Variability.Text

def bytes (s : String) : List UInt8 :=
  s.toByteArray.data.toList

/-- The text between two byte offsets, empty unless it is a text by itself. -/
def slice (source : ByteArray) (start stop : Nat) : String :=
  (String.fromUTF8? (source.extract start stop)).getD ""

def within (low high : UInt8) (b : UInt8) : Bool :=
  low ≤ b && b ≤ high

def isTail (b : UInt8) : Bool := within 0x80 0xBF b

def isPair (a b : UInt8) : Bool :=
  within 0xC2 0xDF a && isTail b

/-- Three bytes of one character: neither a longer form of a shorter one nor a
surrogate. -/
def isTriple (a b c : UInt8) : Bool :=
  isTail c &&
    ((a == 0xE0 && within 0xA0 0xBF b) || (within 0xE1 0xEC a && isTail b) ||
      (a == 0xED && within 0x80 0x9F b) || (within 0xEE 0xEF a && isTail b))

/-- Four bytes of one character, at most U+10FFFF. -/
def isQuadruple (a b c d : UInt8) : Bool :=
  isTail c && isTail d &&
    ((a == 0xF0 && within 0x90 0xBF b) || (within 0xF1 0xF3 a && isTail b) ||
      (a == 0xF4 && within 0x80 0x8F b))

/-- The offset of the first byte that no character accounts for, counted from
`offset`; the end when there is none. -/
def validUpTo (offset : Nat) : List UInt8 → Nat
  | [] => offset
  | a :: rest =>
    if a < 0x80 then validUpTo (offset + 1) rest
    else
      match rest with
      | [] => offset
      | b :: rest =>
        if isPair a b then validUpTo (offset + 2) rest
        else
          match rest with
          | [] => offset
          | c :: rest =>
            if isTriple a b c then validUpTo (offset + 3) rest
            else
              match rest with
              | [] => offset
              | d :: rest =>
                if isQuadruple a b c d then validUpTo (offset + 4) rest else offset

end Variability.Text
