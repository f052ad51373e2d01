/-! Places in a source, for people: lines end with a line feed only, and lines
and columns count from one. Columns count bytes. -/
namespace Variability.Text

structure Position where
  offset : Nat
  line : Nat
  column : Nat
  deriving DecidableEq, Repr

def lineFeed : UInt8 := 10

/-- A number as it is kept in 32 bits. -/
def narrow (n : Nat) : Nat := n % UInt32.size

/-- The place of a byte offset; an offset past the end means the end. -/
def Position.ofOffset (source : List UInt8) (offset : Nat) : Position :=
  let before := source.take offset
  { offset := narrow before.length
    line := narrow (before.count lineFeed + 1)
    column := narrow ((before.reverse.takeWhile (· != lineFeed)).length + 1) }

def Position.describe (p : Position) : String :=
  s!"line {p.line}, column {p.column}"

end Variability.Text
