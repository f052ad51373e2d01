import Variability.Markup.Loader
import Variability.Proofs.Markup.Scan

/-! Reading a part of a source. The lexer and the loader run side by side: the
bytes of the part take the lexer from one state to another, and the reports on
them take the loader along. What a part does depends on its surroundings only
through the two states, so the parts of a source can be read one by one. -/
namespace Variability.Markup
open Text

def PendingTag.extend (tag : PendingTag) (values : List (String × String)) : PendingTag :=
  { tag with attributes := if tag.dropped then tag.attributes else values.reverse ++ tag.attributes }

@[simp] theorem PendingTag.extend_nil (tag : PendingTag) : tag.extend [] = tag := by
  simp [extend]

@[simp] theorem PendingTag.extend_extend (tag : PendingTag) (values more : List (String × String)) :
    (tag.extend values).extend more = tag.extend (values ++ more) := by
  cases dropped : tag.dropped <;> simp [extend, dropped]

def Loader.inTag (l : Loader) (tag : PendingTag) : Loader :=
  { l with pendingTag := some tag, pendingAttribute := none }

def Loader.inAttribute (l : Loader) (tag : PendingTag) (name : String) : Loader :=
  { l with pendingTag := some tag, pendingAttribute := some { name } }

namespace Loader

theorem addText_blank {text : String} (blank : isBlankText text = true) (l : Loader)
    (offset : Nat) : l.addText text offset = .ok l :=
  if_pos blank

theorem decodeSpan_of_slice {source : ByteArray} {span : Span} {raw text : String}
    (cut : slice source span.start span.stop = raw) (decoded : decode raw = .ok text) :
    decodeSpan source span = .ok text := by
  rw [decodeSpan, cut, decoded]

private theorem onText_empty (l : Loader) (source : ByteArray) (span : Span)
    (empty : slice source span.start span.stop = "") : l.onText source span = .ok l := by
  have decoded : decodeSpan source span = .ok "" := decodeSpan_of_slice empty rfl
  have unchanged : l.addText "" span.start = .ok l := addText_blank rfl l span.start
  unfold onText
  rw [decoded, empty]
  split
  · rfl
  split
  · exact unchanged
  · exact unchanged

theorem foldlM_run {source : ByteArray} {span : Span} {raw : String} {l m : Loader}
    (cut : slice source span.start span.stop = raw) (load : l.onText source span = .ok m) :
    (if (bytes raw).isEmpty then [] else [.text span]).foldlM (step isHeavy source) l = .ok m := by
  split
  case isTrue byteless =>
    -- an empty run is not reported, and it would not have changed anything
    have empty : raw = "" := eq_empty_of_bytes (List.isEmpty_iff.mp byteless)
    rw [onText_empty l source span (cut.trans empty)] at load
    exact load
  case isFalse =>
    rw [List.foldlM_cons, step, load]
    rfl

/-- The value of an attribute, which is not reported when it is empty. -/
def valueOf (source : ByteArray) : Option Span → Except Failure String
  | some span => decodeSpan source span
  | none => .ok ""

theorem onAttributeEnd_of_value {source : ByteArray} {tag : PendingTag} {value : String}
    {written : Option Span} (meant : tag.dropped = true ∨ valueOf source written = .ok value)
    (l : Loader) (name : String) :
    onAttributeEnd { l with pendingTag := some tag, pendingAttribute := some ⟨name, written⟩ } source =
      .ok (l.inTag (tag.extend [(name, value)])) := by
  obtain ⟨tag, offset, attributes, dropped⟩ := tag
  cases dropped with
  | true => rfl
  | false =>
    have meant := meant.resolve_left nofun
    cases written with
    | none =>
      rw [← Except.ok.inj meant]
      rfl
    | some span =>
      rw [valueOf] at meant
      simp only [onAttributeEnd, meant]
      rfl

private theorem foldlM_value (source : ByteArray) (span : Span) {raw value : String}
    {tag : PendingTag}
    (cut : slice source span.start span.stop = raw)
    (meant : tag.dropped = true ∨ decode raw = .ok value)
    (l : Loader) (name : String) (quote : Quote) (offset : Nat) :
    ((if (bytes raw).isEmpty then [] else [Token.attributeValue span]) ++
        [Token.attributeEnd quote offset]).foldlM (step isHeavy source) (l.inAttribute tag name) =
      .ok (l.inTag (tag.extend [(name, value)])) := by
  split
  case isTrue byteless =>
    have empty : raw = "" := eq_empty_of_bytes (List.isEmpty_iff.mp byteless)
    have meant : tag.dropped = true ∨ valueOf source Option.none = .ok value := by
      refine meant.imp_right fun decoded => ?_
      rw [empty] at decoded
      rw [← Except.ok.inj decoded]
      rfl
    rw [List.nil_append, List.foldlM_cons, step, inAttribute, onAttributeEnd_of_value meant]
    rfl
  case isFalse =>
    have meant : tag.dropped = true ∨ valueOf source (some span) = .ok value := by
      refine meant.imp_right fun decoded => ?_
      rw [valueOf, decodeSpan_of_slice cut decoded]
    rw [List.singleton_append, List.foldlM_cons, step]
    change [Token.attributeEnd quote offset].foldlM (step isHeavy source)
      { l with pendingTag := some tag, pendingAttribute := some ⟨name, some span⟩ } = _
    rw [List.foldlM_cons, step, onAttributeEnd_of_value meant]
    rfl

end Loader

/-- Wherever the text stands in a source, it takes the lexer from one state to
another and the loader from `l` to `l'`. A run of text begins where its state
is entered. -/
def Reads (s : String) (state : State) (l : Loader) (state' : State) (l' : Loader) : Prop :=
  ∀ (before after : String) (mark : Nat), (state = .text → mark = before.utf8ByteSize) →
    ∃ mark' reports,
      Cursor.scan ⟨state, mark⟩ before.utf8ByteSize (bytes s) = (⟨state', mark'⟩, reports) ∧
      (state' = .text → mark' = (before ++ s).utf8ByteSize) ∧
      reports.foldlM (Loader.step isHeavy (before ++ s ++ after).toByteArray) l = .ok l'

namespace Reads
variable {s t : String} {a b c : State} {l m n : Loader}

theorem nil (a : State) (l : Loader) : Reads "" a l a l := by
  intro before after mark begins
  exact ⟨mark, [], rfl, by simpa using begins, rfl⟩

theorem append (first : Reads s a l b m) (second : Reads t b m c n) : Reads (s ++ t) a l c n := by
  intro before after mark begins
  obtain ⟨mark₁, reports₁, scan₁, begins₁, load₁⟩ := first before (t ++ after) mark begins
  obtain ⟨mark₂, reports₂, scan₂, begins₂, load₂⟩ := second (before ++ s) after mark₁ begins₁
  refine ⟨mark₂, reports₁ ++ reports₂, ?_, ?_, ?_⟩
  · rw [bytes_append]
    refine Cursor.scan_append_of_eq scan₁ ?_
    rw [length_bytes, ← String.utf8ByteSize_append]
    exact scan₂
  · simpa only [String.append_assoc] using begins₂
  · rw [List.foldlM_append]
    simp only [String.append_assoc] at load₁ load₂ ⊢
    rw [load₁]
    exact load₂

theorem pass (inside : a ≠ .text)
    (stay : ∀ byte ∈ bytes s, ∀ mark i, Cursor.step ⟨a, mark⟩ i byte = ⟨⟨a, mark⟩, []⟩)
    (l : Loader) : Reads s a l a l := by
  intro before after mark _
  refine ⟨mark, [], ?_, fun h => absurd h inside, rfl⟩
  exact Cursor.scan_stay (fun byte found => stay byte found mark) _

theorem silent (outside : b ≠ .text)
    (scans : ∀ mark i, ∃ mark', Cursor.scan ⟨a, mark⟩ i (bytes s) = (⟨b, mark'⟩, []))
    (l : Loader) : Reads s a l b l := by
  intro before after mark _
  obtain ⟨mark', scan⟩ := scans mark before.utf8ByteSize
  exact ⟨mark', [], scan, fun h => absurd h outside, rfl⟩

theorem markup (report : Nat → Token)
    (scans : ∀ mark i, Cursor.scan ⟨a, mark⟩ i (bytes s) =
      (⟨.text, i + s.utf8ByteSize⟩, [report i]))
    (loads : ∀ before after : String, Loader.step isHeavy (before ++ s ++ after).toByteArray l
      (report before.utf8ByteSize) = .ok m) :
    Reads s a l .text m := by
  intro before after mark _
  refine ⟨_, _, scans mark _, fun _ => String.utf8ByteSize_append.symm, ?_⟩
  rw [List.foldlM_cons, loads before after]
  rfl

theorem name (inner next : State) (report : Span → Token) (outside : next ≠ .text)
    (enters : ∃ first others, bytes s = first :: others ∧
      (∀ mark i, Cursor.step ⟨a, mark⟩ i first = ⟨⟨inner, i⟩, []⟩) ∧
      ∀ byte ∈ others, ∀ mark i, Cursor.step ⟨inner, mark⟩ i byte = ⟨⟨inner, mark⟩, []⟩)
    (leaves : ∃ first others, bytes t = first :: others ∧
      ∀ mark i, ∃ mark', Cursor.step ⟨inner, mark⟩ i first =
        (Cursor.step ⟨next, mark'⟩ i first).after (report ⟨mark, i⟩))
    (loads : ∀ source span, slice source span.start span.stop = s →
      ∃ m, Loader.step isHeavy source l (report span) = .ok m ∧ Reads t next m c n) :
    Reads (s ++ t) a l c n := by
  intro before after mark _
  obtain ⟨first, others, split, enter, stay⟩ := enters
  obtain ⟨final, rest, split', leave⟩ := leaves
  have named : Cursor.scan ⟨a, mark⟩ before.utf8ByteSize (bytes s) =
      (⟨inner, before.utf8ByteSize⟩, []) := by
    rw [split, Cursor.scan, enter, Cursor.scan_stay fun byte found => stay byte found _]
    rfl
  obtain ⟨mark', leave⟩ := leave before.utf8ByteSize (before ++ s).utf8ByteSize
  obtain ⟨m, load, reads⟩ := loads (before ++ s ++ (t ++ after)).toByteArray
    ⟨before.utf8ByteSize, (before ++ s).utf8ByteSize⟩ (slice_between before s (t ++ after))
  obtain ⟨last, reports, scan, begins, loaded⟩ :=
    reads (before ++ s) after mark' (fun h => absurd h outside)
  refine ⟨last, report ⟨before.utf8ByteSize, (before ++ s).utf8ByteSize⟩ :: reports, ?_, ?_, ?_⟩
  · -- the byte after the name reports it and then counts for the state `next`
    rw [bytes_append]
    refine Cursor.scan_append_of_eq named ?_
    rw [length_bytes, ← String.utf8ByteSize_append, split', Cursor.scan, leave]
    rw [split', Cursor.scan, Prod.mk.injEq] at scan
    simp only [Move.after, List.cons_append]
    rw [scan.1, scan.2]
  · simpa only [String.append_assoc] using begins
  · simp only [String.append_assoc] at load loaded ⊢
    rw [List.foldlM_cons, load]
    exact loaded

theorem run (free : '<' ∉ s.toList)
    (loads : ∀ source span, slice source span.start span.stop = s → l.onText source span = .ok m) :
    Reads (s ++ "<") .text l .beforeTagName m := by
  intro before after mark begins
  rw [begins rfl]
  have free : 0x3C ∉ bytes s := fun found => free (mem_toList_of_mem_bytes (by decide) found)
  have scan := Cursor.scan_run before.utf8ByteSize free
  rw [← bytes_append] at scan
  refine ⟨_, _, scan, nofun, ?_⟩
  have between := slice_between before s ("<" ++ after)
  simp only [String.utf8ByteSize_append, String.append_assoc] at between
  rw [length_bytes, String.append_assoc, String.append_assoc]
  exact Loader.foldlM_run between (loads _ ⟨_, _⟩ between)

private theorem quote_byte (quote : Quote) : ∃ byte, bytes quote.char.toString =
    [byte] ∧ byte < 0x80 ∧
    Char.ofUInt8 byte = quote.char ∧ ∀ mark i,
      Cursor.scan ⟨.beforeAttributeValue, mark⟩ i [byte] = (⟨.attributeValue quote, i + 1⟩, []) := by
  cases quote with
  | single => exact ⟨0x27, rfl, by decide, rfl, fun _ _ => rfl⟩
  | double => exact ⟨0x22, rfl, by decide, rfl, fun _ _ => rfl⟩

theorem quoted {quote : Quote} {value : String} {tag : PendingTag} (free : quote.char ∉ s.toList)
    (meant : tag.dropped = true ∨ decode s = .ok value) (l : Loader) (name : String) :
    Reads (quote.char.toString ++ (s ++ quote.char.toString))
      .beforeAttributeValue (l.inAttribute tag name)
      .beforeAttributeName (l.inTag (tag.extend [(name, value)])) := by
  intro before after mark _
  obtain ⟨byte, single, low, char, opens⟩ := quote_byte quote
  have free : byte ∉ bytes s := fun found => free (char ▸ mem_toList_of_mem_bytes low found)
  have scan := Cursor.scan_append_of_eq (opens mark before.utf8ByteSize)
    (Cursor.scan_quoted (before.utf8ByteSize + 1) quote char free)
  rw [bytes_append, bytes_append, single]
  refine ⟨_, _, scan, nofun, ?_⟩
  have between := slice_inside before quote.char.toString s quote.char.toString after
  have size : quote.char.toString.utf8ByteSize = 1 := by rw [← length_bytes, single]; rfl
  rw [size] at between
  rw [length_bytes, List.nil_append]
  exact Loader.foldlM_value _ ⟨_, _⟩ between meant l name quote _

end Reads
end Variability.Markup
