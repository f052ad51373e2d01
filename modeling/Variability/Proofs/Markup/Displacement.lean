import Mathlib.Data.List.Forall2
import Variability.Proofs.Markup.Continuation

/-! The same bytes at two places. What the lexer reports on them depends on the place
only by its offsets. -/
namespace Variability.Markup
open Text

/-- The same report on two sources. The offsets in it may differ, as long as the same
bytes are there. -/
inductive Token.Alike (first second : ByteArray) : Token → Token → Prop
  | text {s t : Span} (same : s.raw first = t.raw second) : Alike first second (.text s) (.text t)
  | cdata {s t : Span} (same : s.raw first = t.raw second) :
    Alike first second (.cdata s) (.cdata t)
  | comment (s t : Span) : Alike first second (.comment s) (.comment t)
  | instruction (s t : Span) : Alike first second (.instruction s) (.instruction t)
  | startName {s t : Span} (same : s.raw first = t.raw second) :
    Alike first second (.startName s) (.startName t)
  | attributeName {s t : Span} (same : s.raw first = t.raw second) :
    Alike first second (.attributeName s) (.attributeName t)
  | attributeValue {s t : Span} (same : s.raw first = t.raw second) :
    Alike first second (.attributeValue s) (.attributeValue t)
  | attributeEnd (quote : Quote) (i j : Nat) :
    Alike first second (.attributeEnd quote i) (.attributeEnd quote j)
  | startEnd (i j : Nat) : Alike first second (.startEnd i) (.startEnd j)
  | emptyEnd (i j : Nat) : Alike first second (.emptyEnd i) (.emptyEnd j)
  | endName {s t : Span} (same : s.raw first = t.raw second) :
    Alike first second (.endName s) (.endName t)
  | fault (fault : LexicalFault) (i j : Nat) : Alike first second (.fault fault i) (.fault fault j)
  | endOfSource : Alike first second .endOfSource .endOfSource

section Lexing
variable {first second : ByteArray} {n k : Nat}

def Cursor.shift (k : Nat) (c : Cursor) : Cursor := { c with mark := c.mark + k }

/-- One move is the other `k` bytes further on, and the section that it leads to begins
behind the first `n` bytes. -/
structure Move.Alike (first second : ByteArray) (n k : Nat) (m moved : Move) : Prop where
  next : moved.next = m.next.shift k
  mark : n ≤ m.next.mark
  reports : List.Forall₂ (Token.Alike first second) m.reports moved.reports

private theorem Move.Alike.after {m moved : Move} {t u : Token}
    (alike : m.Alike first second n k moved)
    (report : Token.Alike first second t u) :
    (m.after t).Alike first second n k (moved.after u) :=
  ⟨alike.next, alike.mark, .cons report alike.reports⟩

namespace Cursor
variable {c : Cursor} {i : Nat}

private theorem goto_alike (low : n ≤ c.mark) (state : State) :
    (c.goto state).Alike first second n k ((c.shift k).goto state) :=
  ⟨rfl, low, .nil⟩

private theorem refuse_alike (low : n ≤ c.mark) (fault : LexicalFault) :
    (c.refuse fault i).Alike first second n k ((c.shift k).refuse fault (i + k)) :=
  ⟨rfl, low, .cons (.fault fault _ _) .nil⟩

private theorem begin_alike {start : Nat} (low : n ≤ start) (state : State) :
    Move.Alike first second n k ⟨⟨state, start⟩, []⟩ ⟨⟨state, start + k⟩, []⟩ :=
  ⟨rfl, low, .nil⟩

private theorem toText_alike (low : n ≤ i) {ts us : List Token}
    (reports : List.Forall₂ (Token.Alike first second) ts us) :
    (toText i ts).Alike first second n k (toText (i + k) us) :=
  ⟨by rw [toText, toText, shift, Nat.add_right_comm], Nat.le_succ_of_le low, reports⟩

private theorem beforeAttributeName_alike (low : n ≤ c.mark) (here : n ≤ i) (b : UInt8) :
    (c.beforeAttributeName i b).Alike first second n k
      ((c.shift k).beforeAttributeName (i + k) b) := by
  unfold beforeAttributeName
  split
  case h_1 => exact toText_alike here (.cons (.startEnd _ _) .nil)
  case h_2 => exact goto_alike low _
  case h_7 =>
    split
    · exact goto_alike low _
    · exact begin_alike here _
  all_goals exact refuse_alike low _

private theorem afterAttributeName_alike (low : n ≤ c.mark) (b : UInt8) :
    (c.afterAttributeName i b).Alike first second n k
      ((c.shift k).afterAttributeName (i + k) b) := by
  unfold afterAttributeName
  split
  · exact goto_alike low _
  split
  · exact goto_alike low _
  · exact refuse_alike low _

private theorem afterEndName_alike (low : n ≤ c.mark) (here : n ≤ i) (b : UInt8) :
    (c.afterEndName i b).Alike first second n k ((c.shift k).afterEndName (i + k) b) := by
  unfold afterEndName
  split
  · exact toText_alike here .nil
  split
  · exact goto_alike low _
  · exact refuse_alike low _

private theorem declaration_alike (low : n ≤ c.mark) (here : n ≤ i) (b : UInt8) :
    (c.declaration i b).Alike first second n k ((c.shift k).declaration (i + k) b) := by
  unfold declaration
  split
  · exact toText_alike here .nil
  · exact goto_alike low _

section Moved
variable (same : ∀ start stop, n ≤ start →
  slice first start stop = slice second (start + k) (stop + k))
include same

private theorem section_alike (report : Span → Token)
    (alike : ∀ {s t : Span}, s.raw first = t.raw second →
      Token.Alike first second (report s) (report t))
    (low : n ≤ c.mark) :
    List.Forall₂ (Token.Alike first second) (if c.mark < i then [report ⟨c.mark, i⟩] else [])
      (if c.mark + k < i + k then [report ⟨c.mark + k, i + k⟩] else []) := by
  simp only [Nat.add_lt_add_iff_right]
  split
  · exact .cons (alike (same _ _ low)) .nil
  · exact .nil

/-- The reports at the end of a body do not count the two bytes that close it. -/
theorem step_alike (low : n ≤ c.mark) (here : n ≤ i) (far : 2 ≤ i) (b : UInt8) :
    (c.step i b).Alike first second n k ((c.shift k).step (i + k) b) := by
  obtain ⟨state, mark⟩ := c
  have later : n ≤ i + 1 := Nat.le_succ_of_le here
  have beyond (state : State) : Move.Alike first second n k ⟨⟨state, i + 1⟩, []⟩
      ⟨⟨state, i + k + 1⟩, []⟩ := by
    rw [Nat.add_right_comm]
    exact begin_alike later state
  unfold step
  cases state <;> dsimp only [shift]
  case text =>
    split
    · exact ⟨rfl, here, section_alike same .text .text low⟩
    · exact goto_alike low _
  case beforeTagName =>
    split
    · exact beyond _
    split
    · exact beyond _
    split
    · exact goto_alike low _
    split
    · exact begin_alike here _
    · exact refuse_alike low _
  case tagName =>
    split
    · exact (beforeAttributeName_alike here here b).after (.startName (same _ _ low))
    · exact goto_alike low _
  case emptyTag =>
    split
    · exact toText_alike here (.cons (.emptyEnd _ _) .nil)
    · exact refuse_alike low _
  case beforeEndName =>
    split
    · exact refuse_alike low _
    split
    · exact begin_alike here _
    · exact refuse_alike low _
  case endName =>
    split
    · rw [Nat.add_right_comm]
      exact (afterEndName_alike later here b).after (.endName (same _ _ low))
    · exact goto_alike low _
  case afterEndName => exact afterEndName_alike low here b
  case beforeAttributeName => exact beforeAttributeName_alike low here b
  case attributeName =>
    split
    · exact (afterAttributeName_alike here b).after (.attributeName (same _ _ low))
    · exact goto_alike low _
  case afterAttributeName => exact afterAttributeName_alike low b
  case beforeAttributeValue =>
    split
    · exact beyond _
    split
    · exact beyond _
    split
    · exact goto_alike low _
    · exact refuse_alike low _
  case attributeValue quote =>
    split
    · refine ⟨?_, later, List.rel_append ?_ (.cons (.attributeEnd quote _ _) .nil)⟩
      · exact congrArg (Cursor.mk _) (Nat.add_right_comm i k 1)
      · exact section_alike same .attributeValue .attributeValue low
    · exact goto_alike low _
  case beforeDeclaration =>
    split
    · exact beyond _
    split
    · exact beyond _
    · exact goto_alike low _
  case declaration => exact declaration_alike low here b
  case instruction =>
    split
    · exact toText_alike here (.cons (.instruction _ _) .nil)
    · exact goto_alike low _
  case beforeComment =>
    split
    · exact beyond _
    · exact goto_alike low _
  case comment =>
    split
    · exact toText_alike here (.cons (.comment _ _) .nil)
    · exact goto_alike low _
  case cdataMark =>
    split
    · split
      · exact beyond _
      · exact goto_alike low _
    · exact declaration_alike low here b
  case cdata =>
    split
    · have body := same mark (i - 2) low
      rw [← Nat.sub_add_comm far] at body
      exact toText_alike here (.cons (.cdata body) .nil)
    · exact goto_alike low _

theorem atEnd_alike (low : n ≤ c.mark) :
    List.Forall₂ (Token.Alike first second) (c.atEnd i) ((c.shift k).atEnd (i + k)) := by
  obtain ⟨state, mark⟩ := c
  unfold atEnd
  cases state <;> dsimp only [shift]
  case text => exact section_alike same .text .text low
  all_goals exact .cons (.fault _ _ _) .nil

end Moved

def remaining (c : Cursor) (i : Nat) (bs : List UInt8) : List Token :=
  (c.scan i bs).2 ++ (c.scan i bs).1.atEnd (i + bs.length)

@[simp] theorem remaining_append (c : Cursor) (i : Nat) (as bs : List UInt8) :
    c.remaining i (as ++ bs) =
      (c.scan i as).2 ++ (c.scan i as).1.remaining (i + as.length) bs := by
  simp only [remaining, scan_append, List.length_append, List.append_assoc, Nat.add_assoc]

@[simp] theorem remaining_cons (c : Cursor) (i : Nat) (b : UInt8) (bs : List UInt8) :
    c.remaining i (b :: bs) = (c.step i b).reports ++ (c.step i b).next.remaining (i + 1) bs := by
  rw [← List.singleton_append, remaining_append]
  simp only [scan, List.append_nil, List.length_singleton]

def textReport (start stop : Nat) : List Token :=
  if start < stop then [.text ⟨start, stop⟩] else []

/-- A text is one report, and it ends where the next `<` is or with the source. -/
theorem remaining_text (mark i : Nat) {body tail : List UInt8} (free : 0x3C ∉ body)
    (stop : ∀ b ∈ tail.head?, b = 0x3C) :
    remaining ⟨.text, mark⟩ i (body ++ tail) = textReport mark (i + body.length) ++
      remaining ⟨.text, i + body.length⟩ (i + body.length) tail := by
  unfold textReport
  rw [remaining_append, scan_text mark i free, List.nil_append]
  cases tail with
  | nil => by_cases pending : mark < i + body.length <;> simp [remaining, atEnd, pending]
  | cons b tail =>
    obtain rfl := stop b rfl
    have opens : (Char.ofUInt8 0x3C == '<') = true := rfl
    simp [step, opens]

theorem remaining_alike
    (same : ∀ start stop, n ≤ start → slice first start stop = slice second (start + k) (stop + k))
    (low : n ≤ c.mark) (here : n ≤ i) (far : 2 ≤ i) (bs : List UInt8) :
    List.Forall₂ (Token.Alike first second) (c.remaining i bs)
      ((c.shift k).remaining (i + k) bs) := by
  induction bs generalizing c i with
  | nil => exact atEnd_alike same low
  | cons b bs ih =>
    have now := step_alike same low here far b
    rw [remaining_cons, remaining_cons, now.next, Nat.add_right_comm]
    have later := ih now.mark (Nat.le_succ_of_le here) (Nat.le_succ_of_le far)
    exact List.rel_append now.reports later

end Cursor
end Lexing

theorem tokens_append (as bs : List UInt8) :
    tokens (as ++ bs) = (Cursor.scan {} 0 as).2 ++
      (Cursor.scan {} 0 as).1.remaining as.length bs ++ [.endOfSource] := by
  have all := Cursor.remaining_append {} 0 as bs
  rw [Nat.zero_add] at all
  rw [tokens_eq_scan, ← all, Cursor.remaining, Nat.zero_add]

end Variability.Markup
