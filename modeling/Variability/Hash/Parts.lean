import Variability.Hash.Xxh3
import Variability.Text.Utf8

/-! Hashing a sequence of texts part by part. The parts are separated by a bar,
so the digest is that of the joined text. -/
namespace Variability.Hash

def hashText (s : String) : UInt64 :=
  xxh3 s.toByteArray

def toHex (hash : UInt64) : String :=
  let digits := Nat.toDigits 16 hash.toNat
  String.ofList (List.replicate (16 - digits.length) '0' ++ digits)

def separator : UInt8 := '|'.toNat.toUInt8

/-- What has been hashed so far: the joined bytes and the number of parts. -/
structure Parts where
  bytes : ByteArray := ByteArray.empty
  count : Nat := 0

namespace Parts

def push (parts : Parts) (part : String) : Parts :=
  let bytes := if parts.count == 0 then parts.bytes else parts.bytes.push separator
  { bytes := bytes ++ part.toByteArray, count := parts.count + 1 }

def digest (parts : Parts) : UInt64 := xxh3 parts.bytes

def ofList (parts : List String) : Parts := parts.foldl push {}

end Parts
end Variability.Hash
