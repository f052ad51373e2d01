import Variability.Text.CaseTable

/-! Lower-casing of whole texts. Every character has its own lower-case form,
except that a capital sigma at the end of a word becomes the final sigma, which
is why the function looks at what stands before and after it. -/
namespace Variability.Text

def isCased (c : Char) : Bool :=
  inRanges casedRanges c.toNat

def isCaseIgnorable (c : Char) : Bool :=
  inRanges caseIgnorableRanges c.toNat

/-- The lower-case form of a character on its own: one character, or two for
the capital i with a dot, whose dot becomes a combining mark. -/
def lowerChar (c : Char) : List Char :=
  let n := c.toNat
  if n < 0x80 then [c.toLower]
  else if n == 0x130 then ['i', Char.ofNat 0x307]
  else
    match lowerCaseRuns.find? (·.covers n) with
    | some run => [Char.ofNat (Int.toNat (n + run.shift))]
    | none => [c]

/-- Past the case-ignorable characters comes a cased one. -/
def meetsCased (cs : List Char) : Bool :=
  match cs.dropWhile isCaseIgnorable with
  | c :: _ => isCased c
  | [] => false

/-- Whether a sigma ends a word, given the text before it, nearest character
first, and the text after it. -/
def endsWord (before after : List Char) : Bool :=
  meetsCased before && !meetsCased after

def lowerChars (before : List Char) : List Char → List Char
  | [] => []
  | c :: rest =>
    let lowered :=
      if c == 'Σ' then [if endsWord before rest then 'ς' else 'σ'] else lowerChar c
    lowered ++ lowerChars (c :: before) rest

def lowerCase (s : String) : String :=
  String.ofList (lowerChars [] s.toList)

end Variability.Text
