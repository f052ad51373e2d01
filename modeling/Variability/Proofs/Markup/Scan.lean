import Variability.Markup.Lexer
import Variability.Proofs.Text.Utf8
import Mathlib.Data.List.Infix
import Mathlib.Data.List.Induction

/-! What the lexer makes of a run of bytes that begins at some offset. The
reports on a source are those on its bytes, run after run; comments, sections
of character data and instructions each are one run that reports its body. -/
namespace Variability.Markup
open Text

def LexicalFault.isEnd : LexicalFault → Bool
  | .endInTag | .endInComment | .endInCdata | .endInInstruction => true
  | _ => false

namespace Cursor

theorem atEnd_cases (c : Cursor) (i : Nat) :
    (c.state = .text ∧ c.atEnd i = if c.mark < i then [.text ⟨c.mark, i⟩] else []) ∨
      (c.state ≠ .text ∧ ∃ fault : LexicalFault,
        fault.isEnd = true ∧ c.atEnd i = [.fault fault i]) := by
  obtain ⟨state, mark⟩ := c
  cases state with
  | text => exact .inl ⟨rfl, rfl⟩
  | beforeComment | comment => exact .inr ⟨State.noConfusion, .endInComment, rfl, rfl⟩
  | cdataMark | cdata => exact .inr ⟨State.noConfusion, .endInCdata, rfl, rfl⟩
  | instruction => exact .inr ⟨State.noConfusion, .endInInstruction, rfl, rfl⟩
  | _ => exact .inr ⟨State.noConfusion, .endInTag, rfl, rfl⟩

theorem state_of_clean {c : Cursor} {i : Nat} (clean : ∀ t ∈ c.atEnd i, t.isFault = false) :
    c.state = .text := by
  rcases c.atEnd_cases i with ⟨inText, _⟩ | ⟨_, fault, _, last⟩
  · exact inText
  · rw [last] at clean
    have := clean _ List.mem_cons_self
    contradiction

/-- Where the bytes from offset `i` on lead, and what is reported on the way. -/
def scan (c : Cursor) (i : Nat) : List UInt8 → Cursor × List Token
  | [] => (c, [])
  | b :: rest =>
    let tail := (c.step i b).next.scan (i + 1) rest
    (tail.1, (c.step i b).reports ++ tail.2)

@[simp] theorem scan_nil (c : Cursor) (i : Nat) : c.scan i [] = (c, []) := rfl

@[simp] theorem scan_append (c : Cursor) (i : Nat) (as bs : List UInt8) :
    c.scan i (as ++ bs) =
      (((c.scan i as).1.scan (i + as.length) bs).1,
        (c.scan i as).2 ++ ((c.scan i as).1.scan (i + as.length) bs).2) := by
  induction as generalizing c i with
  | nil => simp
  | cons a as ih =>
    simp only [List.cons_append, scan, ih, List.length_cons, List.append_assoc]
    rw [Nat.add_right_comm, Nat.add_assoc i]

theorem scan_append_of_eq {c d e : Cursor} {i : Nat} {as bs : List UInt8} {ts us : List Token}
    (first : c.scan i as = (d, ts)) (second : d.scan (i + as.length) bs = (e, us)) :
    c.scan i (as ++ bs) = (e, ts ++ us) := by
  rw [scan_append, first, second]

theorem scan_stay {c : Cursor} {bs : List UInt8} (stay : ∀ b ∈ bs, ∀ i, c.step i b = ⟨c, []⟩)
    (i : Nat) : c.scan i bs = (c, []) := by
  induction bs generalizing i with
  | nil => rfl
  | cons b bs ih =>
    have later := ih (fun a h => stay a (List.mem_cons_of_mem b h)) (i + 1)
    simp only [scan, stay b List.mem_cons_self, later, List.append_nil]

theorem run_reports (l : Lexer) (source : List UInt8) :
    (Lexer.run (fun _ => false) l source).reports.toList =
      l.reports.toList ++ (l.cursor.scan l.index source).2 ++
        (l.cursor.scan l.index source).1.atEnd (l.index + source.length) ++ [.endOfSource] := by
  induction source generalizing l with
  | nil => simp [Lexer.run, Lexer.finish]
  | cons b source ih =>
    simp only [Lexer.run, Bool.false_eq_true, if_false, ih, Lexer.feed, scan, List.length_cons]
    rw [Nat.add_right_comm, Nat.add_assoc l.index]
    simp

end Cursor

theorem tokens_eq_scan (source : List UInt8) :
    tokens source =
      (Cursor.scan {} 0 source).2 ++ (Cursor.scan {} 0 source).1.atEnd source.length ++
        [.endOfSource] := by
  rw [tokens, Lexer.runAll, Cursor.run_reports]
  simp

namespace Cursor

/-- A body that never holds `mark` is read to its end when every byte that does
not complete the mark leads on. `after` is the state that a part of the body
leads to. -/
theorem scan_body {mark : List UInt8} (after : List UInt8 → State) {start : Nat}
    (lead : ∀ bs b i, ¬ mark <:+ bs ++ [b] →
      step ⟨after bs, start⟩ i b = ⟨⟨after (bs ++ [b]), start⟩, []⟩)
    {body : List UInt8} (free : ¬ mark <:+: body) (i : Nat) :
    scan ⟨after [], start⟩ i body = (⟨after body, start⟩, []) := by
  -- bytes are taken off the end, where the state knows what was read last
  induction body using List.reverseRecOn with
  | nil => rfl
  | append_singleton bs b ih =>
    have earlier : ¬ mark <:+: bs := fun h => free (h.trans (List.prefix_append _ _).isInfix)
    have last : ¬ mark <:+ bs ++ [b] := fun h => free h.isInfix
    refine scan_append_of_eq (ih earlier) ?_
    simp [scan, lead bs b _ last]

def trailing (byte : UInt8) (bs : List UInt8) : Nat :=
  (bs.reverse.takeWhile (· == byte)).length

@[simp] theorem trailing_concat (byte : UInt8) (bs : List UInt8) (b : UInt8) :
    trailing byte (bs ++ [b]) = if b == byte then trailing byte bs + 1 else 0 := by
  simp only [trailing, List.reverse_append, List.reverse_singleton, List.singleton_append,
    List.takeWhile_cons]
  split <;> simp

private theorem suffix_of_trailing {byte : UInt8} {bs : List UInt8} {n : Nat}
    (h : n ≤ trailing byte bs) : List.replicate n byte <:+ bs := by
  induction bs using List.reverseRecOn generalizing n with
  | nil =>
    have : n = 0 := by simpa [trailing] using h
    simp [this]
  | append_singleton bs b ih =>
    rw [trailing_concat] at h
    cases n with
    | zero => simp
    | succ n =>
      split at h
      case isTrue same =>
        obtain ⟨front, split⟩ := ih (Nat.le_of_succ_le_succ h)
        rw [List.replicate_succ', ← eq_of_beq same]
        exact ⟨front, by rw [← List.append_assoc, eq_of_beq same, split]⟩
      case isFalse => omega

/-- A section that ends with `>` after two bytes of one kind, of which its
state counts those at the end of the part that has been read. -/
theorem scan_counted (state : Nat → State) (report : Span → Token) (byte : UInt8)
    (next : ∀ n start i b, step ⟨state n, start⟩ i b =
      if Char.ofUInt8 b == '>' && 2 ≤ n then toText i [report ⟨start, i - 2⟩]
      else ⟨⟨state (if Char.ofUInt8 b == Char.ofUInt8 byte then n + 1 else 0), start⟩, []⟩)
    (other : byte ≠ 0x3E) {body : List UInt8} (free : ¬ [byte, byte, 0x3E] <:+: body) (i : Nat) :
    scan ⟨state 0, i⟩ i (body ++ [byte, byte, 0x3E]) =
      (⟨.text, i + body.length + 3⟩, [report ⟨i, i + body.length⟩]) := by
  have closer (b : UInt8) : (Char.ofUInt8 b == '>') = (b == 0x3E) := ofUInt8_beq b 0x3E
  simp only [closer, ofUInt8_beq] at next
  have lead : ∀ bs b j, ¬ [byte, byte, 0x3E] <:+ bs ++ [b] →
      step ⟨state (trailing byte bs), i⟩ j b = ⟨⟨state (trailing byte (bs ++ [b])), i⟩, []⟩ := by
    intro bs b j unfinished
    rw [next, trailing_concat, if_neg]
    -- a `>` after two of the bytes would complete the mark
    intro close
    simp only [Bool.and_eq_true, beq_iff_eq, decide_eq_true_eq] at close
    obtain ⟨front, split⟩ := suffix_of_trailing close.2
    exact unfinished ⟨front, by rw [← split, close.1]; simp [List.replicate]⟩
  refine scan_append_of_eq (scan_body (fun bs => state (trailing byte bs)) lead free i) ?_
  simp [scan, next, other, toText]

section Sections
variable (mark i : Nat) {body : List UInt8}

theorem scan_comment (free : ¬ bytes "-->" <:+: body) :
    scan ⟨.beforeTagName, mark⟩ i (bytes "!--" ++ (body ++ bytes "-->")) =
      (⟨.text, i + 3 + body.length + 3⟩, [.comment ⟨i + 3, i + 3 + body.length⟩]) := by
  have opening : scan ⟨.beforeTagName, mark⟩ i (bytes "!--") = (⟨.comment 0, i + 3⟩, []) := rfl
  have next : ∀ n start i b, step ⟨.comment n, start⟩ i b =
      if Char.ofUInt8 b == '>' && 2 ≤ n then toText i [.comment ⟨start, i - 2⟩]
      else ⟨⟨.comment (if Char.ofUInt8 b == '-' then n + 1 else 0), start⟩, []⟩ :=
    fun _ _ _ _ => rfl
  exact scan_append_of_eq opening (scan_counted .comment .comment 0x2D next (by decide) free (i + 3))

theorem scan_cdata (free : ¬ bytes "]]>" <:+: body) :
    scan ⟨.beforeTagName, mark⟩ i (bytes "![CDATA[" ++ (body ++ bytes "]]>")) =
      (⟨.text, i + 8 + body.length + 3⟩, [.cdata ⟨i + 8, i + 8 + body.length⟩]) := by
  have opening : scan ⟨.beforeTagName, mark⟩ i (bytes "![CDATA[") = (⟨.cdata 0, i + 8⟩, []) := rfl
  have next : ∀ n start i b, step ⟨.cdata n, start⟩ i b =
      if Char.ofUInt8 b == '>' && 2 ≤ n then toText i [.cdata ⟨start, i - 2⟩]
      else ⟨⟨.cdata (if Char.ofUInt8 b == ']' then n + 1 else 0), start⟩, []⟩ :=
    fun _ _ _ _ => rfl
  exact scan_append_of_eq opening (scan_counted .cdata .cdata 0x5D next (by decide) free (i + 8))

theorem scan_instruction (free : ¬ bytes "?>" <:+: body) :
    scan ⟨.beforeTagName, mark⟩ i (bytes "?" ++ (body ++ bytes "?>")) =
      (⟨.text, i + 1 + body.length + 2⟩, [.instruction ⟨i + 1, i + 1 + body.length⟩]) := by
  have opening : scan ⟨.beforeTagName, mark⟩ i (bytes "?") = (⟨.instruction false, i + 1⟩, []) := rfl
  refine scan_append_of_eq opening ?_
  have lead : ∀ bs b j, ¬ bytes "?>" <:+ bs ++ [b] →
      step ⟨.instruction (bs.getLast? == some 0x3F), i + 1⟩ j b =
        ⟨⟨.instruction ((bs ++ [b]).getLast? == some 0x3F), i + 1⟩, []⟩ := by
    intro bs b j unfinished
    have closer : (Char.ofUInt8 b == '>') = (b == 0x3E) := ofUInt8_beq b 0x3E
    have questioned : (Char.ofUInt8 b == '?') = (b == 0x3F) := ofUInt8_beq b 0x3F
    simp only [step, closer, questioned]
    rw [if_neg]
    · simp [goto]
    · intro close
      simp only [Bool.and_eq_true, beq_iff_eq] at close
      obtain ⟨rfl, last⟩ := close
      obtain ⟨front, rfl⟩ := List.getLast?_eq_some_iff.mp last
      exact unfinished ⟨front, by simp; rfl⟩
  refine scan_append_of_eq (scan_body (fun bs => .instruction (bs.getLast? == some 0x3F))
    lead free (i + 1)) ?_
  rfl

private theorem ofUInt8_beq_of_not_mem {stop b : UInt8} (free : stop ∉ body) (found : b ∈ body) :
    (Char.ofUInt8 b == Char.ofUInt8 stop) = false := by
  have other : b ≠ stop := by
    rintro rfl
    exact free found
  rw [ofUInt8_beq]
  simpa using other

theorem scan_text (free : 0x3C ∉ body) : scan ⟨.text, mark⟩ i body = (⟨.text, mark⟩, []) := by
  refine scan_stay (fun b found j => ?_) i
  have other : (Char.ofUInt8 b == '<') = false := ofUInt8_beq_of_not_mem free found
  simp [step, other, goto]

theorem scan_run (free : 0x3C ∉ body) :
    scan ⟨.text, i⟩ i (body ++ bytes "<") =
      (⟨.beforeTagName, i + body.length⟩,
        if body.isEmpty then [] else [.text ⟨i, i + body.length⟩]) := by
  have bracket : bytes "<" = [0x3C] := rfl
  have opens : (Char.ofUInt8 0x3C == '<') = true := rfl
  rw [scan_append, scan_text i i free, bracket]
  cases body <;> simp [scan, step, opens]

theorem scan_quoted (quote : Quote) {last : UInt8} (closes : Char.ofUInt8 last = quote.char)
    (free : last ∉ body) :
    scan ⟨.attributeValue quote, i⟩ i (body ++ [last]) =
      (⟨.beforeAttributeName, i + body.length + 1⟩,
        (if body.isEmpty then [] else [.attributeValue ⟨i, i + body.length⟩]) ++
          [.attributeEnd quote (i + body.length)]) := by
  have stay : scan ⟨.attributeValue quote, i⟩ i body = (⟨.attributeValue quote, i⟩, []) := by
    refine scan_stay (fun b found j => ?_) i
    have other := ofUInt8_beq_of_not_mem free found
    rw [closes] at other
    simp [step, other, goto]
  rw [scan_append, stay]
  cases body <;> simp [scan, step, closes]

end Sections
end Cursor
end Variability.Markup
