import Variability.Proofs.Markup.Reads
import Variability.Proofs.Markup.Spelling

/-! Reading the tags, comments, instructions and sections that the grammar
admits. A start tag leaves the loader with its name and its attributes when it
comes to its end. -/
namespace Variability.Markup
open Text

theorem isSpace_eq (b : UInt8) : isSpace b = spaceChars.contains (Char.ofUInt8 b) := by
  have blank : (Char.ofUInt8 b == ' ') = (b == 0x20) := ofUInt8_beq b 0x20
  have tab : (Char.ofUInt8 b == '\t') = (b == 0x09) := ofUInt8_beq b 0x09
  have line : (Char.ofUInt8 b == '\n') = (b == 0x0A) := ofUInt8_beq b 0x0A
  have carriage : (Char.ofUInt8 b == '\r') = (b == 0x0D) := ofUInt8_beq b 0x0D
  simp only [isSpace, spaceChars, List.contains_cons, List.contains_nil, blank, tab, line, carriage]
  ac_rfl

theorem endsName_eq (b : UInt8) :
    endsName b = ('/' :: '>' :: spaceChars).contains (Char.ofUInt8 b) := by
  rw [endsName, isSpace_eq, List.contains_cons, List.contains_cons, Bool.or_assoc]

theorem endsName_eq_false {b : UInt8} (other : Char.ofUInt8 b ∉ '/' :: '>' :: spaceChars) :
    endsName b = false := by
  rw [endsName_eq, ← Bool.not_eq_true, List.contains_iff_mem]
  exact other

private theorem Spaces.isSpace (gap : Spaces) : ∀ b ∈ bytes gap, Markup.isSpace b = true := by
  have encoded : spaceChars.all (fun c => (String.utf8EncodeChar c).all Markup.isSpace) = true := rfl
  intro b found
  rw [bytes_eq_flatMap] at found
  obtain ⟨c, member, byte⟩ := List.mem_flatMap.mp found
  exact List.all_eq_true.mp (List.all_eq_true.mp encoded c (gap.property c member)) b byte

def EndsName (s : String) : Prop :=
  ∃ first others, bytes s = first :: others ∧ endsName first = true

theorem EndsName.append {s : String} (ends : EndsName s) (t : String) : EndsName (s ++ t) := by
  obtain ⟨first, others, split, ends⟩ := ends
  exact ⟨first, others ++ bytes t, by rw [bytes_append, split]; rfl, ends⟩

theorem Spaces.endsName (gap : Spaces) (nonempty : gap.val ≠ "") : EndsName gap := by
  cases split : bytes gap with
  | nil => exact absurd (eq_empty_of_bytes split) nonempty
  | cons first others =>
    have space := gap.isSpace first (by rw [split]; exact List.mem_cons_self)
    exact ⟨first, others, split, by simp [Markup.endsName, space]⟩

private theorem Spaces.endsName_append (gap : Spaces) {s : String} (ends : EndsName s) :
    EndsName (gap ++ s) := by
  by_cases empty : gap.val = ""
  · rw [empty, String.empty_append]
    exact ends
  · exact (gap.endsName empty).append s

/-- The bytes of a name, by what its first character is and by what the others
are not. -/
theorem bytes_name {text : String} {start : Char → Bool} {set : List Char}
    (starts : text.toList.head?.any start = true) (ascii : set.all (·.toNat < 128) = true)
    (free : ∀ c ∈ text.toList.tail, c ∉ set) :
    ∃ first others, bytes text = first :: others ∧
      (0x80 ≤ first ∨ start (Char.ofUInt8 first) = true) ∧
      ∀ b ∈ others, Char.ofUInt8 b ∉ set := by
  cases split : text.toList with
  | nil => simp [split] at starts
  | cons c cs =>
    rw [split] at starts free
    obtain ⟨first, others, shape, char, tail⟩ := bytes_cons split
    refine ⟨first, others, shape, ?_, fun b found => ?_⟩
    · rcases char with rfl | high
      · exact .inr starts
      · exact .inl high
    · rcases tail b found with high | low
      · exact not_mem_of_high ascii high
      · exact not_mem_of_mem_bytes ascii (by simpa using free) low

@[simp] theorem startsName_ofUInt8 (b : UInt8) : startsName (Char.ofUInt8 b) = isTagStart b := by
  have high : (128 ≤ (Char.ofUInt8 b).toNat) = (0x80 ≤ b) := by
    rw [UInt8.le_iff_toNat_le]
    simp [Char.toNat]
  simp only [startsName, isTagStart, high]

theorem TagName.bytes_eq (name : TagName) : ∃ first others, bytes name.text = first :: others ∧
    isTagStart first = true ∧ ∀ b ∈ others, endsName b = false := by
  obtain ⟨first, others, split, starts, free⟩ :=
    bytes_name name.starts rfl fun c found => name.free c (List.mem_of_mem_tail found)
  refine ⟨first, others, split, ?_, fun b found => endsName_eq_false (free b found)⟩
  rcases starts with high | start
  · simp [isTagStart, high]
  · exact startsName_ofUInt8 first ▸ start

theorem AttributeName.bytes_eq (name : AttributeName) :
    ∃ first others, bytes name.text = first :: others ∧
      Char.ofUInt8 first ∉ '=' :: '"' :: '\'' :: '<' :: '>' :: '/' :: spaceChars ∧
      ∀ b ∈ others, Char.ofUInt8 b ∉ '=' :: '/' :: '>' :: spaceChars := by
  obtain ⟨first, others, split, starts, free⟩ :=
    bytes_name name.starts rfl name.free
  refine ⟨first, others, split, ?_, free⟩
  rcases starts with high | start
  · exact not_mem_of_high rfl high
  · exact of_decide_eq_true start

private theorem beq_of_isTagStart {b : UInt8} {c : Char} (start : isTagStart b = true)
    (other : startsName c = false) : (Char.ofUInt8 b == c) = false := by
  rw [beq_eq_false_iff_ne]
  rintro rfl
  rw [startsName_ofUInt8, start] at other
  exact absurd other nofun

theorem Without.free {mark : String} (body : Without mark)
    (ascii : (bytes mark).all (· < 0x80) = true)
    (chars : (bytes mark).map Char.ofUInt8 = mark.toList) : ¬ bytes mark <:+: bytes body := by
  intro found
  have low : ∀ b ∈ bytes mark, b < 0x80 := fun b member =>
    of_decide_eq_true (List.all_eq_true.mp ascii b member)
  have held := infix_toList low body found
  rw [chars] at held
  exact body.property held

namespace Reads

theorem spaces (gap : Spaces) {state : State} (l : Loader)
    (between : state ∈ [.afterEndName, .beforeAttributeName, .afterAttributeName,
      .beforeAttributeValue]) :
    Reads gap state l state l := by
  refine pass ?_ (fun b found mark i => ?_) l
  · rintro rfl
    simp at between
  · have space := gap.isSpace b found
    simp only [isSpace, Bool.or_eq_true, beq_iff_eq] at space
    simp only [List.mem_cons, List.not_mem_nil, or_false] at between
    rcases between with rfl | rfl | rfl | rfl <;> rcases space with ((rfl | rfl) | rfl) | rfl <;> rfl

private theorem utf8ByteSize_section (opening body closing : String) (i : Nat) :
    i + (opening ++ (body ++ closing)).utf8ByteSize =
      i + opening.utf8ByteSize + (bytes body).length + closing.utf8ByteSize := by
  rw [String.utf8ByteSize_append, String.utf8ByteSize_append, length_bytes]
  omega

theorem comment (body : Without "-->") (l : Loader) :
    Reads ("!--" ++ (body ++ "-->")) .beforeTagName l .text l := by
  have free := body.free rfl rfl
  refine markup (fun i => .comment ⟨i + 3, i + 3 + (bytes body).length⟩) (fun mark i => ?_)
    (fun _ _ => rfl)
  rw [bytes_append, bytes_append, utf8ByteSize_section]
  exact Cursor.scan_comment mark i free

theorem instruction (body : Without "?>") (l : Loader) :
    Reads ("?" ++ (body ++ "?>")) .beforeTagName l .text l := by
  have free := body.free rfl rfl
  refine markup (fun i => .instruction ⟨i + 1, i + 1 + (bytes body).length⟩) (fun mark i => ?_)
    (fun _ _ => rfl)
  rw [bytes_append, bytes_append, utf8ByteSize_section]
  exact Cursor.scan_instruction mark i free

theorem misc (m : Misc) (l : Loader) : Reads m.render .beforeTagName l .text l := by
  cases m with
  | comment body =>
    rw [Misc.render, String.append_assoc]
    exact comment body l
  | instruction body =>
    rw [Misc.render, String.append_assoc]
    exact instruction body l

theorem cdata (body : Without "]]>") {l m : Loader}
    (loads : ∀ source span, slice source span.start span.stop = body.val →
      l.onCdata source span = .ok m) :
    Reads ("![CDATA[" ++ (body ++ "]]>")) .beforeTagName l .text m := by
  have free := body.free rfl rfl
  refine markup (fun i => .cdata ⟨i + 8, i + 8 + (bytes body).length⟩) (fun mark i => ?_)
    (fun before after => ?_)
  · rw [bytes_append, bytes_append, utf8ByteSize_section]
    exact Cursor.scan_cdata mark i free
  · rw [length_bytes]
    exact loads _ ⟨_, _⟩ (slice_inside before "![CDATA[" body "]]>" after)

theorem tagName (name : TagName) {t : String} {l n : Loader} {c : State} (ends : EndsName t)
    (allowed : (l.root.isSome && l.opened.isEmpty && !l.isSkipping) = false)
    (calm : l.pendingAttribute = none)
    (rest : ∀ offset, Reads t .beforeAttributeName
      (l.inTag { tag := name.text, offset, dropped := l.isSkipping || isHeavy name.text }) c n) :
    Reads (name.text ++ t) .beforeTagName l c n := by
  refine Reads.name .tagName .beforeAttributeName .startName nofun ?_ ?_ ?_
  · obtain ⟨first, others, split, start, free⟩ := name.bytes_eq
    refine ⟨first, others, split, fun mark i => ?_, fun b found mark i => ?_⟩
    · have declaration : (Char.ofUInt8 first == '!') = false := beq_of_isTagStart start rfl
      have question : (Char.ofUInt8 first == '?') = false := beq_of_isTagStart start rfl
      have slash : (Char.ofUInt8 first == '/') = false := beq_of_isTagStart start rfl
      simp [Cursor.step, declaration, question, slash, start]
    · simp [Cursor.step, free b found, Cursor.goto]
  · obtain ⟨first, others, split, ends⟩ := ends
    exact ⟨first, others, split, fun mark i => ⟨i, by simp [Cursor.step, ends]⟩⟩
  · intro source span cut
    refine ⟨_, ?_, rest (span.start - 1)⟩
    obtain ⟨opened, root, pendingTag, _, skipped, discarded⟩ := l
    cases calm
    simp only [Loader.step, Loader.onStartName, allowed, cut]
    rfl

theorem attributeName (name : AttributeName) {t : String} {l n : Loader} {tag : PendingTag}
    {c : State} (ends : ∃ first others, bytes t = first :: others ∧
      (Char.ofUInt8 first == '=' || endsName first) = true)
    (rest : Reads t .afterAttributeName (l.inAttribute tag name.text) c n) :
    Reads (name.text ++ t) .beforeAttributeName (l.inTag tag) c n := by
  refine Reads.name .attributeName .afterAttributeName .attributeName nofun ?_ ?_ ?_
  · obtain ⟨first, others, split, start, free⟩ := name.bytes_eq
    refine ⟨first, others, split, fun mark i => ?_, fun b found mark i => ?_⟩
    · have space : isSpace first = false := by
        rw [isSpace_eq]
        simpa using fun found => start (by simp [found])
      simp only [List.mem_cons, not_or] at start
      unfold Cursor.step Cursor.beforeAttributeName
      dsimp only
      split <;> simp_all
    · have other : (Char.ofUInt8 b == '=') = false := by
        simpa using fun found => free b ‹_› (by simp [found])
      have ends : endsName b = false := endsName_eq_false fun found => free b ‹_› (by simp_all)
      simp [Cursor.step, other, ends, Cursor.goto]
  · obtain ⟨first, others, split, ends⟩ := ends
    exact ⟨first, others, split, fun mark i => ⟨i, by simp [Cursor.step, ends]⟩⟩
  · intro source span cut
    refine ⟨_, ?_, rest⟩
    simp only [Loader.step, cut]
    rfl

theorem value {mode : Mode} (a : Attribute mode) {tag : PendingTag} (l : Loader)
    (meant : tag.dropped = true ∨ mode = .kept) :
    Reads (a.quote.char.toString ++ (a.value.raw ++ a.quote.char.toString))
      .beforeAttributeValue (l.inAttribute tag a.name.text)
      .beforeAttributeName (l.inTag (tag.extend [(a.name.text, a.value.text)])) := by
  have delimiter : a.quote.char ∈ delimiters := by cases a.quote <;> decide
  refine quoted (a.value.stop_not_mem delimiter) ?_ l a.name.text
  rcases meant with dropped | rfl
  · exact .inl dropped
  · exact .inr (a.value.decode_raw delimiter)

theorem oneAttribute {mode : Mode} (a : Attribute mode) {tag : PendingTag} (l : Loader)
    (meant : tag.dropped = true ∨ mode = .kept) :
    Reads a.render .beforeAttributeName (l.inTag tag)
      .beforeAttributeName (l.inTag (tag.extend [(a.name.text, a.value.text)])) := by
  have equals : Reads "=" .afterAttributeName (l.inAttribute tag a.name.text)
      .beforeAttributeValue (l.inAttribute tag a.name.text) :=
    silent (by decide) (fun mark i => ⟨mark, rfl⟩) _
  unfold Attribute.render
  simp only [String.append_assoc]
  refine attributeName a.name ?_ ?_
  · by_cases empty : a.beforeEquals.val = ""
    · rw [empty, String.empty_append, bytes_append]
      exact ⟨_, _, rfl, rfl⟩
    · obtain ⟨first, others, split, ends⟩ := (a.beforeEquals.endsName empty).append _
      exact ⟨first, others, split, by simp [ends]⟩
  · exact (spaces a.beforeEquals _ (by simp)).append
      (equals.append ((spaces a.afterEquals _ (by simp)).append (value a l meant)))

theorem attributes {mode : Mode} (attributes : List (Spaces × Attribute mode)) {tag : PendingTag}
    (l : Loader) (meant : tag.dropped = true ∨ mode = .kept) :
    Reads (StartTag.renderAttributes attributes) .beforeAttributeName (l.inTag tag)
      .beforeAttributeName
      (l.inTag (tag.extend (attributes.map fun (_, a) => (a.name.text, a.value.text)))) := by
  induction attributes generalizing tag with
  | nil =>
    rw [StartTag.renderAttributes, List.map_nil, PendingTag.extend_nil]
    exact nil _ _
  | cons first rest ih =>
    obtain ⟨gap, a⟩ := first
    rw [StartTag.renderAttributes, List.map_cons, ← List.singleton_append,
      ← PendingTag.extend_extend]
    exact ((spaces gap _ (by simp)).append (oneAttribute a l meant)).append (ih meant)

end Reads

namespace StartTag
variable {mode : Mode} (start : StartTag mode)

theorem endsName {ending : String} (ends : EndsName ending) :
    EndsName (renderAttributes start.attributes ++ (start.gap ++ ending)) := by
  cases split : start.attributes with
  | nil =>
    rw [renderAttributes, String.empty_append]
    exact start.gap.endsName_append ends
  | cons first rest =>
    have nonempty := start.separated first (by rw [split]; rfl)
    rw [renderAttributes, String.append_assoc, String.append_assoc]
    exact (first.1.endsName nonempty).append _

theorem reads {ending : String} (ends : EndsName ending) {l n : Loader}
    (allowed : (l.root.isSome && l.opened.isEmpty && !l.isSkipping) = false)
    (calm : l.pendingAttribute = none)
    (meant : (l.isSkipping || isHeavy start.name.text) = true ∨ mode = .kept)
    (rest : ∀ offset, Reads ending .beforeAttributeName
      (l.inTag (PendingTag.extend ⟨start.name.text, offset, [],
        l.isSkipping || isHeavy start.name.text⟩ start.values)) .text n) :
    Reads (start.render ++ ending) .beforeTagName l .text n := by
  unfold render
  simp only [String.append_assoc]
  refine Reads.tagName start.name (start.endsName ends) allowed calm fun offset => ?_
  exact (Reads.attributes start.attributes l meant).append
    ((Reads.spaces start.gap _ (by simp)).append (rest offset))

end StartTag

namespace Reads

theorem startEnd {l m : Loader} (load : l.onStartEnd false = .ok m) :
    Reads ">" .beforeAttributeName l .text m :=
  markup .startEnd (fun _ _ => rfl) fun _ _ => load

theorem emptyEnd {l m : Loader} (load : l.onStartEnd true = .ok m) :
    Reads "/>" .beforeAttributeName l .text m :=
  markup (fun i => .emptyEnd (i + 1)) (fun _ _ => rfl) fun _ _ => load

theorem endTag (name : TagName) (gap : Spaces) {l m : Loader}
    (loads : ∀ source span, slice source span.start span.stop = name.text →
      l.onEndName source span = .ok m) :
    Reads ("/" ++ (name.text ++ (gap ++ ">"))) .beforeTagName l .text m := by
  have slash : Reads "/" .beforeTagName l .beforeEndName l :=
    silent (by decide) (fun mark i => ⟨mark, rfl⟩) l
  have close : Reads ">" .afterEndName m .text m := by
    intro before after mark _
    refine ⟨_, [], rfl, fun _ => ?_, rfl⟩
    rw [String.utf8ByteSize_append]
    rfl
  refine slash.append (Reads.name .endName .afterEndName .endName nofun ?_ ?_ ?_)
  · obtain ⟨first, others, split, start, free⟩ := name.bytes_eq
    refine ⟨first, others, split, fun mark i => ?_, fun b found mark i => ?_⟩
    · have bracket : (Char.ofUInt8 first == '>') = false := beq_of_isTagStart start rfl
      simp [Cursor.step, bracket, start]
    · have other := free b found
      simp only [endsName, Bool.or_eq_false_iff] at other
      simp [Cursor.step, other, Cursor.goto]
  · cases split : bytes gap with
    | nil =>
      rw [bytes_append, split]
      exact ⟨_, [], rfl, fun mark i => ⟨i + 1, rfl⟩⟩
    | cons first others =>
      have space := gap.isSpace first (by rw [split]; exact List.mem_cons_self)
      rw [bytes_append, split]
      exact ⟨first, _, rfl, fun mark i => ⟨i + 1, by simp [Cursor.step, space]⟩⟩
  · intro source span cut
    refine ⟨m, ?_, (spaces gap m (by simp)).append close⟩
    exact loads source span cut

end Reads
end Variability.Markup
