/-! The 64-bit XXH3 hash without a seed. Short inputs are mixed in one go, in a
way that depends on their length; inputs above 240 bytes run through eight
accumulators, 64 bytes at a time. -/
namespace Variability.Hash

def prime32a : UInt64 := 0x9E3779B1
def prime32b : UInt64 := 0x85EBCA77
def prime32c : UInt64 := 0xC2B2AE3D
def prime64a : UInt64 := 0x9E3779B185EBCA87
def prime64b : UInt64 := 0xC2B2AE3D27D4EB4F
def prime64c : UInt64 := 0x165667B19E3779F9
def prime64d : UInt64 := 0x85EBCA77C2B2AE63
def prime64e : UInt64 := 0x27D4EB2F165667C5
def primeMixA : UInt64 := 0x165667919E3779F9
def primeMixB : UInt64 := 0x9FB21C651E98DF25

/-- The fixed bytes that every input is mixed with. -/
def secret : ByteArray := ⟨#[
  0xb8, 0xfe, 0x6c, 0x39, 0x23, 0xa4, 0x4b, 0xbe, 0x7c, 0x01, 0x81, 0x2c, 0xf7, 0x21, 0xad, 0x1c,
  0xde, 0xd4, 0x6d, 0xe9, 0x83, 0x90, 0x97, 0xdb, 0x72, 0x40, 0xa4, 0xa4, 0xb7, 0xb3, 0x67, 0x1f,
  0xcb, 0x79, 0xe6, 0x4e, 0xcc, 0xc0, 0xe5, 0x78, 0x82, 0x5a, 0xd0, 0x7d, 0xcc, 0xff, 0x72, 0x21,
  0xb8, 0x08, 0x46, 0x74, 0xf7, 0x43, 0x24, 0x8e, 0xe0, 0x35, 0x90, 0xe6, 0x81, 0x3a, 0x26, 0x4c,
  0x3c, 0x28, 0x52, 0xbb, 0x91, 0xc3, 0x00, 0xcb, 0x88, 0xd0, 0x65, 0x8b, 0x1b, 0x53, 0x2e, 0xa3,
  0x71, 0x64, 0x48, 0x97, 0xa2, 0x0d, 0xf9, 0x4e, 0x38, 0x19, 0xef, 0x46, 0xa9, 0xde, 0xac, 0xd8,
  0xa8, 0xfa, 0x76, 0x3f, 0xe3, 0x9c, 0x34, 0x3f, 0xf9, 0xdc, 0xbb, 0xc7, 0xc7, 0x0b, 0x4f, 0x1d,
  0x8a, 0x51, 0xe0, 0x4b, 0xcd, 0xb4, 0x59, 0x31, 0xc8, 0x9f, 0x7e, 0xc9, 0xd9, 0x78, 0x73, 0x64,
  0xea, 0xc5, 0xac, 0x83, 0x34, 0xd3, 0xeb, 0xc3, 0xc5, 0x81, 0xa0, 0xff, 0xfa, 0x13, 0x63, 0xeb,
  0x17, 0x0d, 0xdd, 0x51, 0xb7, 0xf0, 0xda, 0x49, 0xd3, 0x16, 0x55, 0x26, 0x29, 0xd4, 0x68, 0x9e,
  0x2b, 0x16, 0xbe, 0x58, 0x7d, 0x47, 0xa1, 0xfc, 0x8f, 0xf8, 0xb8, 0xd1, 0x7a, 0xd0, 0x31, 0xce,
  0x45, 0xcb, 0x3a, 0x8f, 0x95, 0x16, 0x04, 0x28, 0xaf, 0xd7, 0xfb, 0xca, 0xbb, 0x4b, 0x40, 0x7e]⟩

/-- The byte at an offset, zero past the end. -/
def byteAt (data : ByteArray) (i : Nat) : UInt64 :=
  if h : i < data.size then data[i].toUInt64 else 0

def word32 (data : ByteArray) (i : Nat) : UInt64 :=
  byteAt data i ||| byteAt data (i + 1) <<< 8 ||| byteAt data (i + 2) <<< 16 |||
    byteAt data (i + 3) <<< 24

def word64 (data : ByteArray) (i : Nat) : UInt64 :=
  word32 data i ||| word32 data (i + 4) <<< 32

def rotateLeft (x n : UInt64) : UInt64 := x <<< n ||| x >>> (64 - n)

def swapBytes (x : UInt64) : UInt64 :=
  (List.range 8).foldl (fun y i => y <<< 8 ||| (x >>> (8 * i).toUInt64 &&& 0xFF)) 0

def xorShift (x n : UInt64) : UInt64 := x ^^^ (x >>> n)

/-- Both halves of the full product, combined. -/
def foldMul (x y : UInt64) : UInt64 :=
  let product := x.toNat * y.toNat
  product.toUInt64 ^^^ (product >>> 64).toUInt64

def avalanche (x : UInt64) : UInt64 :=
  xorShift (xorShift x 37 * primeMixA) 32

def strongAvalanche (x : UInt64) : UInt64 :=
  xorShift (xorShift (xorShift x 33 * prime64b) 29 * prime64c) 32

/-- Sixteen bytes of input against sixteen bytes of the secret. -/
def mix16 (data : ByteArray) (i k : Nat) : UInt64 :=
  foldMul (word64 data i ^^^ word64 secret k) (word64 data (i + 8) ^^^ word64 secret (k + 8))

def hashEmpty : UInt64 :=
  strongAvalanche (word64 secret 56 ^^^ word64 secret 64)

def hash1to3 (data : ByteArray) : UInt64 :=
  let len := data.size
  let combined := byteAt data 0 <<< 16 ||| byteAt data (len / 2) <<< 24 |||
    byteAt data (len - 1) ||| len.toUInt64 <<< 8
  strongAvalanche (combined ^^^ word32 secret 0 ^^^ word32 secret 4)

def hash4to8 (data : ByteArray) : UInt64 :=
  let len := data.size
  let keyed := (word32 data (len - 4) + word32 data 0 <<< 32) ^^^
    (word64 secret 8 ^^^ word64 secret 16)
  let x := (keyed ^^^ rotateLeft keyed 49 ^^^ rotateLeft keyed 24) * primeMixB
  xorShift ((x ^^^ (x >>> 35 + len.toUInt64)) * primeMixB) 28

def hash9to16 (data : ByteArray) : UInt64 :=
  let len := data.size
  let low := word64 data 0 ^^^ (word64 secret 24 ^^^ word64 secret 32)
  let high := word64 data (len - 8) ^^^ (word64 secret 40 ^^^ word64 secret 48)
  avalanche (len.toUInt64 + swapBytes low + high + foldMul low high)

/-- Pairs of pieces from both ends, as many as the length needs. -/
def hash17to128 (data : ByteArray) : UInt64 :=
  let len := data.size
  let rounds := (len - 1) / 32 + 1
  avalanche ((List.range rounds).foldl
    (fun acc i =>
      acc + mix16 data (16 * i) (32 * i) + mix16 data (len - 16 * (i + 1)) (32 * i + 16))
    (len.toUInt64 * prime64a))

def hash129to240 (data : ByteArray) : UInt64 :=
  let len := data.size
  let first := (List.range 8).foldl (fun acc i => acc + mix16 data (16 * i) (16 * i))
    (len.toUInt64 * prime64a)
  let rest := (List.range (len / 16 - 8)).foldl
    (fun acc i => acc + mix16 data (16 * (i + 8)) (16 * i + 3)) (avalanche first)
  avalanche (rest + mix16 data (len - 16) 119)

abbrev Lanes := Vector UInt64 8

def initialLanes : Lanes :=
  #v[prime32c, prime64a, prime64b, prime64c, prime64d, prime32b, prime64e, prime32a]

/-- One stripe of 64 bytes: each lane takes its neighbour's word and the
product of the halves of its own keyed word. -/
def accumulate (data : ByteArray) (lanes : Lanes) (i k : Nat) : Lanes :=
  Vector.ofFn fun lane =>
    let n := lane.val
    let keyed : UInt64 := word64 data (i + 8 * n) ^^^ word64 secret (k + 8 * n)
    lanes.get lane + word64 data (i + 8 * (n ^^^ 1)) + (keyed &&& (0xFFFFFFFF : UInt64)) * (keyed >>> 32)

def scramble (lanes : Lanes) (k : Nat) : Lanes :=
  Vector.ofFn fun lane =>
    (xorShift (lanes.get lane) 47 ^^^ word64 secret (k + 8 * lane.val)) * prime32a

/-- Stripes are grouped by sixteen; after each full group but the last stripe
the lanes are scrambled. -/
def hashLong (data : ByteArray) : UInt64 :=
  let len := data.size
  let stripes := (len - 1) / 64
  let lanes := (List.range stripes).foldl
    (fun lanes s =>
      let lanes := accumulate data lanes (64 * s) (8 * (s % 16))
      if s % 16 == 15 then scramble lanes 128 else lanes)
    initialLanes
  let lanes := accumulate data lanes (len - 64) 121
  let merge (i : Nat) : UInt64 :=
    foldMul (lanes.toArray[2 * i]?.getD 0 ^^^ word64 secret (11 + 16 * i))
      (lanes.toArray[2 * i + 1]?.getD 0 ^^^ word64 secret (19 + 16 * i))
  avalanche ((List.range 4).foldl (fun acc i => acc + merge i) (len.toUInt64 * prime64a))

def xxh3 (data : ByteArray) : UInt64 :=
  let len := data.size
  if len == 0 then hashEmpty
  else if len ≤ 3 then hash1to3 data
  else if len ≤ 8 then hash4to8 data
  else if len ≤ 16 then hash9to16 data
  else if len ≤ 128 then hash17to128 data
  else if len ≤ 240 then hash129to240 data
  else hashLong data

end Variability.Hash
