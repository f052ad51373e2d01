/-! Character references: `&` and `;` around one of five names or the number of
a character. -/
namespace Variability.Markup

def digit? (base : Nat) (c : Char) : Option Nat :=
  let value :=
    if c.isDigit then c.toNat - '0'.toNat
    else if 'a' ≤ c && c ≤ 'f' then c.toNat - 'a'.toNat + 10
    else if 'A' ≤ c && c ≤ 'F' then c.toNat - 'A'.toNat + 10
    else base
  if value < base then some value else none

/-- At least one digit, and nothing but digits. -/
def digits? (base : Nat) (cs : List Char) : Option Nat :=
  if cs.isEmpty then none
  else cs.foldlM (fun n c => (digit? base c).map (base * n + ·)) 0

/-- A number may carry a plus sign. -/
def number? (base : Nat) : List Char → Option Nat
  | '+' :: cs => digits? base cs
  | cs => digits? base cs

/-- The character with that number, which a surrogate does not have. -/
def character? (n : Nat) : Option Char :=
  if n.isValidChar then some (Char.ofNat n) else none

/-- What the text between `&` and `;` stands for. -/
def reference? : List Char → Option Char
  | ['l', 't'] => some '<'
  | ['g', 't'] => some '>'
  | ['a', 'm', 'p'] => some '&'
  | ['q', 'u', 'o', 't'] => some '"'
  | ['a', 'p', 'o', 's'] => some '\''
  | '#' :: 'x' :: digits => (number? 16 digits).bind character?
  | '#' :: 'X' :: digits => (number? 16 digits).bind character?
  | '#' :: digits => (number? 10 digits).bind character?
  | _ => none

/-- A reference that stands for nothing, or that never ends. -/
structure BadReference where
  /-- Where its `&` is, in bytes. -/
  offset : Nat
  text : String
  deriving DecidableEq, Repr

structure Decoder where
  offset : Nat := 0
  out : String := ""
  /-- The offset of an open reference and its name so far, last character first. -/
  pending : Option (Nat × List Char) := none

namespace Decoder

def step (d : Decoder) (c : Char) : Except BadReference Decoder :=
  let offset := d.offset + c.utf8Size
  match d.pending with
  | none =>
    if c == '&' then .ok { d with offset, pending := some (d.offset, []) }
    else .ok { d with offset, out := d.out.push c }
  | some (start, name) =>
    if c == ';' then
      match reference? name.reverse with
      | some decoded => .ok ⟨offset, d.out.push decoded, none⟩
      | none => .error ⟨start, String.ofList ('&' :: name.reverse ++ [';'])⟩
    else .ok { d with offset, pending := some (start, c :: name) }

def finish (d : Decoder) : Except BadReference String :=
  match d.pending with
  | none => .ok d.out
  | some (start, name) => .error ⟨start, String.ofList ('&' :: name.reverse)⟩

end Decoder

def decode (raw : String) : Except BadReference String := do
  let d ← raw.toList.foldlM Decoder.step {}
  d.finish

end Variability.Markup
