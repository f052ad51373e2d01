import Variability.Proofs.Markup.Tags

/-! What a state of the lexer says about the bytes behind it. The bytes read so far
are those up to the mark and the part that has been read since; every mark is set
after an ASCII byte, so no character goes across it, and the part looks as the
state says. One byte leads from one such state to another, and what is reported on
the way is a part of the source that begins and ends between two characters. -/
namespace Variability.Markup
open Text

def Token.span? : Token → Option Span
  | .text span | .cdata span | .comment span | .instruction span | .startName span
  | .attributeName span | .attributeValue span | .endName span => some span
  | .attributeEnd .. | .startEnd _ | .emptyEnd _ | .fault .. | .endOfSource => none

section Names
variable {starts ends : UInt8 → Bool} {part : List UInt8} {b : UInt8}

/-- A byte that may start a name, and after it none that ends it. -/
def IsName (starts ends : UInt8 → Bool) (part : List UInt8) : Prop :=
  part.head?.any starts = true ∧ ∀ b ∈ part.tail, ends b = false

private theorem isName_singleton (start : starts b = true) : IsName starts ends [b] :=
  ⟨start, nofun⟩

theorem IsName.ne_nil (name : IsName starts ends part) : part ≠ [] := by
  rintro rfl
  exact absurd name.1 nofun

theorem IsName.concat (name : IsName starts ends part) (goes : ends b = false) :
    IsName starts ends (part ++ [b]) := by
  obtain ⟨first, others, rfl⟩ := List.exists_cons_of_ne_nil name.ne_nil
  refine ⟨name.1, fun a found => ?_⟩
  rcases List.mem_append.mp found with inside | last
  · exact name.2 a inside
  · rw [List.mem_singleton.mp last, goes]

def startsAttribute (b : UInt8) : Bool :=
  Char.ofUInt8 b ∉ '=' :: '"' :: '\'' :: '<' :: '>' :: '/' :: spaceChars

def endsAttribute (b : UInt8) : Bool := Char.ofUInt8 b == '=' || endsName b

theorem endsAttribute_eq (b : UInt8) :
    endsAttribute b = ('=' :: '/' :: '>' :: spaceChars).contains (Char.ofUInt8 b) := by
  rw [endsAttribute, endsName_eq, ← List.contains_cons]

/-- Ends the name in an end tag, which may hold a slash. -/
def endsEndName (b : UInt8) : Bool := Char.ofUInt8 b == '>' || isSpace b

end Names

section Ascii
variable {b : UInt8}

theorem eq_of_char {a : UInt8} (is : Char.ofUInt8 b = Char.ofUInt8 a) : b = a := by
  rw [← beq_iff_eq, ofUInt8_beq] at is
  exact eq_of_beq is

private theorem lt_of_char {c : Char} (is : Char.ofUInt8 b = c) (ascii : c.toNat < 128) :
    b < 0x80 := by
  rw [← is] at ascii
  rw [UInt8.lt_iff_toNat_lt]
  simpa [Char.toNat] using ascii

private theorem lt_of_isSpace (space : isSpace b = true) : b < 0x80 := by
  simp only [isSpace, Bool.or_eq_true, beq_iff_eq] at space
  rcases space with ((rfl | rfl) | rfl) | rfl <;> decide

private theorem lt_of_endsName (ends : endsName b = true) : b < 0x80 := by
  simp only [endsName, Bool.or_eq_true, beq_iff_eq] at ends
  rcases ends with (slash | bracket) | space
  · exact lt_of_char slash (by decide)
  · exact lt_of_char bracket (by decide)
  · exact lt_of_isSpace space

private theorem lt_of_endsEndName (ends : endsEndName b = true) : b < 0x80 := by
  simp only [endsEndName, Bool.or_eq_true, beq_iff_eq] at ends
  rcases ends with bracket | space
  · exact lt_of_char bracket (by decide)
  · exact lt_of_isSpace space

private theorem lt_of_endsAttribute (ends : endsAttribute b = true) : b < 0x80 := by
  simp only [endsAttribute, Bool.or_eq_true, beq_iff_eq] at ends
  rcases ends with equals | ends
  · exact lt_of_char equals (by decide)
  · exact lt_of_endsName ends

private theorem lt_of_not_isTagStart (other : ¬ isTagStart b = true) : b < 0x80 := by
  rw [← UInt8.not_le]
  intro high
  simp [isTagStart, high] at other

private theorem lt_of_cdataMark {matched : Nat} (is : cdataMark[matched]? = some (Char.ofUInt8 b)) :
    b < 0x80 := by
  have ascii : cdataMark.all (·.toNat < 128) = true := rfl
  have found := List.mem_of_getElem? is
  exact lt_of_char rfl (of_decide_eq_true (List.all_eq_true.mp ascii _ found))

end Ascii

/-- What the bytes up to the mark and the part read since then look like in a state;
`clean` says that nothing has been refused so far. -/
def State.Fits (clean : Prop) (before part : List UInt8) : State → Prop
  | .text | .attributeValue _ => EndsAscii before
  | .beforeTagName => EndsAscii (before ++ part) ∧ (clean → bytes "<" <:+ before ++ part)
  | .tagName =>
    EndsAscii before ∧ IsName isTagStart endsName part ∧ (clean → bytes "<" <:+ before)
  | .beforeEndName => EndsAscii (before ++ part) ∧ (clean → bytes "</" <:+ before ++ part)
  | .endName =>
    EndsAscii before ∧ IsName isTagStart endsEndName part ∧ (clean → bytes "</" <:+ before)
  | .beforeAttributeName => EndsAscii (before ++ part)
  | .attributeName => EndsAscii before ∧ IsName startsAttribute endsAttribute part
  | .instruction questioned => EndsAscii before ∧ (questioned = true → bytes "?" <:+ part)
  | .comment dashes => EndsAscii before ∧ List.replicate dashes 0x2D <:+ part
  | .cdata brackets => EndsAscii before ∧ List.replicate brackets 0x5D <:+ part
  | .cdataMark matched => matched < Markup.cdataMark.length
  | .emptyTag | .afterEndName | .afterAttributeName | .beforeAttributeValue
  | .beforeDeclaration | .declaration | .beforeComment => True

theorem State.Fits.mono {clean clean' : Prop} (less : clean' → clean) {before part : List UInt8}
    {state : State} (fits : state.Fits clean before part) : state.Fits clean' before part := by
  cases state with
  | beforeTagName | beforeEndName => exact ⟨fits.1, fits.2 ∘ less⟩
  | tagName | endName => exact ⟨fits.1, fits.2.1, fits.2.2 ∘ less⟩
  | _ => exact fits

/-- The span cuts a part out of the source, and no character goes across its ends.
`holds` is said about the bytes ahead of the part and about the part. -/
def Span.Cuts (source : List UInt8) (span : Span) (holds : List UInt8 → List UInt8 → Prop) : Prop :=
  ∃ before part after, source = before ++ part ++ after ∧ span.start = before.length ∧
    span.stop = (before ++ part).length ∧ EndsAscii before ∧ StartsAscii after ∧ holds before part

section Cuts
variable {before part : List UInt8} {b : UInt8} {holds holds' : List UInt8 → List UInt8 → Prop}

theorem Span.Cuts.mono {source : List UInt8} {span : Span} (cuts : span.Cuts source holds)
    (more : ∀ before part, holds before part → holds' before part) : span.Cuts source holds' := by
  obtain ⟨before, part, after, whole, start, stop, ends, starts, fits⟩ := cuts
  exact ⟨before, part, after, whole, start, stop, ends, starts, more before part fits⟩

private theorem Span.cuts_part (ends : EndsAscii before) (low : b < 0x80) (rest : List UInt8)
    (fits : holds before part) :
    Span.Cuts (before ++ part ++ b :: rest) ⟨before.length, (before ++ part).length⟩ holds :=
  ⟨before, part, b :: rest, rfl, rfl, rfl, ends, startsAscii_cons low rest, fits⟩

private theorem Span.cuts_body {body closing : List UInt8} (ends : EndsAscii before)
    (low : b < 0x80)
    (ascii : StartsAscii closing) (rest : List UInt8) (fits : holds before body) :
    Span.Cuts (before ++ (body ++ closing) ++ b :: rest)
      ⟨before.length, (before ++ (body ++ closing)).length - closing.length⟩ holds := by
  refine ⟨before, body, closing ++ b :: rest, by simp, rfl, ?_, ends, ?_, fits⟩
  · simp only [List.length_append]
    omega
  · cases closing with
    | nil => exact startsAscii_cons low rest
    | cons first others => exact ascii

end Cuts

def Token.Sound (clean : Prop) (source : List UInt8) : Token → Prop
  | .text span | .attributeValue span => span.Cuts source fun _ part => part ≠ []
  | .cdata span | .comment span | .instruction span => span.Cuts source fun _ _ => True
  | .startName span => span.Cuts source fun before part =>
    IsName isTagStart endsName part ∧ (clean → bytes "<" <:+ before)
  | .endName span => span.Cuts source fun before part =>
    IsName isTagStart endsEndName part ∧ (clean → bytes "</" <:+ before)
  | .attributeName span => span.Cuts source fun _ part => IsName startsAttribute endsAttribute part
  | .attributeEnd _ offset | .startEnd offset | .emptyEnd offset | .fault _ offset =>
    offset ≤ source.length
  | .endOfSource => True

theorem Token.Sound.mono {clean clean' : Prop} (less : clean' → clean) {source : List UInt8}
    {t : Token} (sound : t.Sound clean source) : t.Sound clean' source := by
  cases t with
  | startName span | endName span =>
    exact Span.Cuts.mono sound fun _ _ ⟨name, opened⟩ => ⟨name, opened ∘ less⟩
  | _ => exact sound

def Cursor.Sound (clean : Prop) (read : List UInt8) (c : Cursor) : Prop :=
  ∃ before part, read = before ++ part ∧ c.mark = before.length ∧ c.state.Fits clean before part

/-- A move over the byte `b` when `read` has been read and the mark is `start`. What
it reports comes after the mark, and the next mark after that. -/
structure Move.Sound (clean : Prop) (start : Nat) (read : List UInt8) (b : UInt8) (m : Move) :
    Prop where
  next : m.next.Sound (clean ∧ ∀ t ∈ m.reports, t.isFault = false) (read ++ [b])
  reports : ∀ rest, ∀ t ∈ m.reports, t.Sound clean (read ++ b :: rest)
  grows : start ≤ m.next.mark
  placed : ∀ span ∈ m.reports.filterMap Token.span?, start ≤ span.start ∧ span.stop ≤ m.next.mark
  ordered : (m.reports.filterMap Token.span?).Pairwise (·.stop ≤ ·.start)

section Moves
variable {clean : Prop} {start : Nat} {read before part : List UInt8} {b : UInt8} {state : State}

theorem Cursor.Sound.mono {clean' : Prop} (less : clean' → clean) {c : Cursor}
    (sound : c.Sound clean read) : c.Sound clean' read := by
  obtain ⟨before, part, split, mark, fits⟩ := sound
  exact ⟨before, part, split, mark, fits.mono less⟩

private theorem Cursor.sound_stay (fits : state.Fits clean before (part ++ [b])) :
    Cursor.Sound clean (before ++ part ++ [b]) ⟨state, before.length⟩ :=
  ⟨before, part ++ [b], List.append_assoc before part [b], rfl, fits⟩

private theorem Cursor.sound_here (fits : state.Fits clean read [b]) :
    Cursor.Sound clean (read ++ [b]) ⟨state, read.length⟩ :=
  ⟨read, [b], rfl, rfl, fits⟩

private theorem Cursor.sound_past (fits : state.Fits clean (read ++ [b]) []) :
    Cursor.Sound clean (read ++ [b]) ⟨state, read.length + 1⟩ := by
  refine ⟨read ++ [b], [], (List.append_nil _).symm, ?_, fits⟩
  rw [List.length_append, List.length_singleton]

private theorem Move.sound_silent {next : Cursor} (sound : next.Sound clean (read ++ [b]))
    (grows : start ≤ next.mark) : Move.Sound clean start read b ⟨next, []⟩ :=
  ⟨sound.mono And.left, nofun, grows, nofun, .nil⟩

private theorem Move.sound_point {next : Cursor} {report : Token}
    (sound : next.Sound (clean ∧ report.isFault = false) (read ++ [b])) (grows : start ≤ next.mark)
    (point : report.span? = none) (inside : ∀ rest, report.Sound clean (read ++ b :: rest)) :
    Move.Sound clean start read b ⟨next, [report]⟩ where
  next := sound.mono fun ⟨cleanBefore, now⟩ => ⟨cleanBefore, now report List.mem_cons_self⟩
  reports rest t reported := by
    rw [List.mem_singleton.mp reported]
    exact inside rest
  grows := grows
  placed := by simp [point]
  ordered := by simp [point]

private theorem Move.Sound.after {m : Move} (sound : m.Sound clean read.length read b)
    {report : Token}
    {span : Span} (is : report.span? = some span) (order : start ≤ span.start)
    (proper : span.start ≤ span.stop) (inside : span.stop ≤ read.length)
    (fits : ∀ rest, report.Sound clean (read ++ b :: rest)) :
    (m.after report).Sound clean start read b := by
  have spans : (m.after report).reports.filterMap Token.span? =
      span :: m.reports.filterMap Token.span? := List.filterMap_cons_some is
  have grows := sound.grows
  refine ⟨?_, fun rest => ?_, ?_, ?_, ?_⟩
  · refine sound.next.mono fun ⟨cleanBefore, now⟩ => ⟨cleanBefore, fun t reported => ?_⟩
    exact now t (List.mem_cons_of_mem report reported)
  · exact List.forall_mem_cons.mpr ⟨fits rest, sound.reports rest⟩
  · change start ≤ m.next.mark
    omega
  · rw [spans, List.forall_mem_cons]
    refine ⟨⟨order, Nat.le_trans inside grows⟩, fun later found => ?_⟩
    have := sound.placed later found
    exact ⟨by omega, this.2⟩
  · rw [spans, List.pairwise_cons]
    refine ⟨fun later found => ?_, sound.ordered⟩
    exact Nat.le_trans inside (sound.placed later found).1

private theorem Move.Sound.after_part {m : Move}
    (sound : m.Sound clean (before ++ part).length (before ++ part) b) (ends : EndsAscii before)
    (low : b < 0x80) {report : Token} {holds : List UInt8 → List UInt8 → Prop}
    (is : report.span? = some ⟨before.length, (before ++ part).length⟩)
    (means : ∀ source, report.Sound clean source ↔
      Span.Cuts source ⟨before.length, (before ++ part).length⟩ holds)
    (fits : holds before part) :
    (m.after report).Sound clean before.length (before ++ part) b := by
  apply sound.after is
  · exact Nat.le_refl _
  · simp
  · exact Nat.le_refl _
  · intro rest
    rw [means]
    exact Span.cuts_part ends low rest fits

end Moves

namespace Cursor
variable {clean : Prop} {start : Nat} {read before part : List UInt8} {b : UInt8} {state : State}

private theorem length_le_part (before part : List UInt8) : before.length ≤
    (before ++ part).length := by
  simp

private theorem endsAscii_stay (low : b < 0x80) : EndsAscii (before ++ (part ++ [b])) := by
  rw [← List.append_assoc]
  exact endsAscii_concat _ low

private theorem refuse_sound (fault : LexicalFault) (fits : state.Fits False before (part ++ [b])) :
    (refuse ⟨state, before.length⟩ fault (before ++ part).length).Sound clean before.length
      (before ++ part) b := by
  apply Move.sound_point
  · exact (sound_stay fits).mono fun impossible => nomatch impossible.2
  · exact Nat.le_refl _
  · rfl
  · intro rest
    simp [Token.Sound]

private theorem goto_sound {state' : State} (fits : state'.Fits clean before (part ++ [b])) :
    (goto ⟨state, before.length⟩ state').Sound clean before.length (before ++ part) b :=
  Move.sound_silent (sound_stay fits) (Nat.le_refl _)

private theorem begin_sound (fits : state.Fits clean (before ++ part) [b]) :
    Move.Sound clean before.length (before ++ part) b ⟨⟨state, (before ++ part).length⟩, []⟩ :=
  Move.sound_silent (sound_here fits) (length_le_part before part)

private theorem skip_sound (fits : state.Fits clean (before ++ part ++ [b]) []) :
    Move.Sound clean before.length (before ++ part) b ⟨⟨state, (before ++ part).length + 1⟩, []⟩ :=
  Move.sound_silent (sound_past fits) (Nat.le_succ_of_le (length_le_part before part))

private theorem toText_sound (low : b < 0x80) (order : start ≤ read.length + 1) :
    (toText read.length).Sound clean start read b :=
  Move.sound_silent (sound_past (endsAscii_concat _ low)) order

private theorem toText_sound_point (low : b < 0x80) (order : start ≤ read.length + 1)
    {report : Token}
    (point : report.span? = none) (inside : ∀ rest, report.Sound clean (read ++ b :: rest)) :
    (toText read.length [report]).Sound clean start read b :=
  Move.sound_point (sound_past (endsAscii_concat _ low)) order point inside

section Tags

private theorem beforeAttributeName_sound (before part : List UInt8)
    (ends : EndsAscii (before ++ part) ∨ endsName b = true) :
    (beforeAttributeName ⟨.beforeAttributeName, before.length⟩ (before ++ part).length b).Sound
      clean before.length (before ++ part) b := by
  unfold beforeAttributeName
  split
  case h_1 close =>
    have order := length_le_part before part
    refine toText_sound_point (lt_of_char close (by decide)) (by omega) rfl fun rest => ?_
    simp [Token.Sound]
  case h_2 => exact goto_sound trivial
  case h_3 is | h_4 is | h_5 is | h_6 is =>
    exact refuse_sound _ (endsAscii_stay (lt_of_char is (by decide)))
  case h_7 close slash equals double single less =>
    split
    case isTrue space => exact goto_sound (endsAscii_stay (lt_of_isSpace space))
    case isFalse other =>
      rw [isSpace_eq, List.contains_iff_mem] at other
      have goes : endsName b = false := by
        apply endsName_eq_false
        simp only [List.mem_cons, not_or]
        exact ⟨slash, close, other⟩
      have starts : startsAttribute b = true := by
        simp only [startsAttribute, List.mem_cons, not_or, decide_eq_true_eq]
        exact ⟨equals, double, single, less, close, slash, other⟩
      -- a name can only begin here when it is not the byte that ended another one
      have ends := ends.resolve_right (by simp [goes])
      exact begin_sound ⟨ends, isName_singleton starts⟩

private theorem afterAttributeName_sound (before part : List UInt8) :
    (afterAttributeName ⟨.afterAttributeName, before.length⟩ (before ++ part).length b).Sound
      clean before.length (before ++ part) b := by
  unfold afterAttributeName
  split
  · exact goto_sound trivial
  · split
    · exact goto_sound trivial
    · exact refuse_sound _ trivial

/-- The mark may already be past the byte that ended the name. -/
theorem afterEndName_sound {mark : Nat} (order : start ≤ mark) (inside : mark ≤ read.length + 1) :
    (afterEndName ⟨.afterEndName, mark⟩ read.length b).Sound clean start read b := by
  have stays (clean : Prop) : Cursor.Sound clean (read ++ [b]) ⟨.afterEndName, mark⟩ := by
    refine ⟨(read ++ [b]).take mark, (read ++ [b]).drop mark, ?_, ?_, trivial⟩
    · rw [List.take_append_drop]
    · rw [List.length_take_of_le]
      simpa using inside
  unfold afterEndName
  split
  case isTrue close => exact toText_sound (lt_of_char (eq_of_beq close) (by decide)) (by omega)
  case isFalse =>
    split
    · exact Move.sound_silent (stays clean) order
    · exact Move.sound_point (stays _) order rfl fun rest => by simp [Token.Sound]

private theorem beforeTagName_sound (fits : State.Fits clean before part .beforeTagName)
    (b : UInt8) :
    (step ⟨.beforeTagName, before.length⟩ (before ++ part).length b).Sound clean before.length
      (before ++ part) b := by
  dsimp only [step]
  split
  case isTrue => exact skip_sound trivial
  split
  case isTrue is =>
    exact skip_sound ⟨endsAscii_concat _ (lt_of_char (eq_of_beq is) (by decide)), nofun⟩
  split
  case isTrue is =>
    obtain rfl : b = 0x2F := eq_of_char (eq_of_beq is)
    refine goto_sound ⟨endsAscii_stay (by decide), fun isClean => ?_⟩
    -- without a fault the `<` is the last byte, so the slash completes `</`
    obtain ⟨front, split⟩ := fits.2 isClean
    exact ⟨front, by rw [← List.append_assoc, ← split, List.append_assoc]; rfl⟩
  split
  case isTrue start => exact begin_sound ⟨fits.1, isName_singleton start, fits.2⟩
  case isFalse other => exact refuse_sound _ ⟨endsAscii_stay (lt_of_not_isTagStart other), nofun⟩

private theorem beforeEndName_sound (fits : State.Fits clean before part .beforeEndName)
    (b : UInt8) :
    (step ⟨.beforeEndName, before.length⟩ (before ++ part).length b).Sound clean before.length
      (before ++ part) b := by
  dsimp only [step]
  split
  case isTrue is =>
    exact refuse_sound _ ⟨endsAscii_stay (lt_of_char (eq_of_beq is) (by decide)), nofun⟩
  split
  case isTrue start => exact begin_sound ⟨fits.1, isName_singleton start, fits.2⟩
  case isFalse other => exact refuse_sound _ ⟨endsAscii_stay (lt_of_not_isTagStart other), nofun⟩

private theorem tagName_sound (fits : State.Fits clean before part .tagName) (b : UInt8) :
    (step ⟨.tagName, before.length⟩ (before ++ part).length b).Sound clean before.length
      (before ++ part) b := by
  dsimp only [step]
  split
  case isTrue ends =>
    -- the byte that ends the name is read once more, as the first one after it
    have rest : (beforeAttributeName ⟨.beforeAttributeName, (before ++ part).length⟩
        (before ++ part ++ []).length b).Sound clean (before ++ part).length (before ++ part ++ []) b :=
      beforeAttributeName_sound (before ++ part) [] (.inr ends)
    rw [List.append_nil] at rest
    exact rest.after_part fits.1 (lt_of_endsName ends) rfl (fun _ => Iff.rfl) fits.2
  case isFalse goes =>
    exact goto_sound ⟨fits.1, fits.2.1.concat (Bool.eq_false_iff.mpr goes), fits.2.2⟩

private theorem endName_sound (fits : State.Fits clean before part .endName) (b : UInt8) :
    (step ⟨.endName, before.length⟩ (before ++ part).length b).Sound clean before.length
      (before ++ part) b := by
  dsimp only [step]
  split
  case isTrue ends =>
    have rest : (afterEndName ⟨.afterEndName, (before ++ part).length + 1⟩
        (before ++ part).length b).Sound clean (before ++ part).length (before ++ part) b :=
      afterEndName_sound (Nat.le_succ _) (Nat.le_refl _)
    exact rest.after_part fits.1 (lt_of_endsEndName ends) rfl (fun _ => Iff.rfl) fits.2
  case isFalse goes =>
    exact goto_sound ⟨fits.1, fits.2.1.concat (Bool.eq_false_iff.mpr goes), fits.2.2⟩

end Tags

section Attributes

private theorem attributeName_sound (fits : State.Fits clean before part .attributeName)
    (b : UInt8) :
    (step ⟨.attributeName, before.length⟩ (before ++ part).length b).Sound clean before.length
      (before ++ part) b := by
  dsimp only [step]
  split
  case isTrue ends =>
    have rest : (afterAttributeName ⟨.afterAttributeName, (before ++ part).length⟩
        (before ++ part ++ []).length b).Sound clean (before ++ part).length (before ++ part ++ []) b :=
      afterAttributeName_sound (before ++ part) []
    rw [List.append_nil] at rest
    exact rest.after_part fits.1 (lt_of_endsAttribute ends) rfl (fun _ => Iff.rfl) fits.2
  case isFalse goes => exact goto_sound ⟨fits.1, fits.2.concat (Bool.eq_false_iff.mpr goes)⟩

private theorem beforeAttributeValue_sound (before part : List UInt8) (b : UInt8) :
    (step ⟨.beforeAttributeValue, before.length⟩ (before ++ part).length b).Sound clean
      before.length (before ++ part) b := by
  dsimp only [step]
  split
  case isTrue is => exact skip_sound (endsAscii_concat _ (lt_of_char (eq_of_beq is) (by decide)))
  split
  case isTrue is => exact skip_sound (endsAscii_concat _ (lt_of_char (eq_of_beq is) (by decide)))
  split
  · exact goto_sound trivial
  · exact refuse_sound _ trivial

private theorem attributeValue_sound {quote : Quote}
    (fits : State.Fits clean before part (.attributeValue quote)) (b : UInt8) :
    (step ⟨.attributeValue quote, before.length⟩ (before ++ part).length b).Sound clean
      before.length (before ++ part) b := by
  dsimp only [step]
  split
  case isTrue is =>
    have low : b < 0x80 := lt_of_char (eq_of_beq is) (by cases quote <;> decide)
    have ended {start : Nat} (order : start ≤ (before ++ part).length) :
        Move.Sound clean start (before ++ part) b
          ⟨⟨.beforeAttributeName, (before ++ part).length + 1⟩,
            [.attributeEnd quote (before ++ part).length]⟩ := by
      apply Move.sound_point
      · apply sound_past
        rw [State.Fits, List.append_nil]
        exact endsAscii_concat _ low
      · exact Nat.le_succ_of_le order
      · rfl
      · intro rest
        simp [Token.Sound]
    split
    case isTrue later =>
      refine (ended (Nat.le_refl _)).after_part fits low rfl (fun _ => Iff.rfl) ?_
      rintro rfl
      simp at later
    case isFalse => exact ended (length_le_part before part)
  case isFalse => exact goto_sound fits

end Attributes

section Bodies

private theorem text_sound (fits : State.Fits clean before part .text) (b : UInt8) :
    (step ⟨.text, before.length⟩ (before ++ part).length b).Sound clean before.length
      (before ++ part) b := by
  dsimp only [step]
  split
  case isTrue opens =>
    obtain rfl : b = 0x3C := eq_of_char (eq_of_beq opens)
    have next : Cursor.Sound clean (before ++ part ++ [0x3C])
        ⟨.beforeTagName, (before ++ part).length⟩ :=
      sound_here ⟨endsAscii_concat _ (by decide), fun _ => List.suffix_append _ _⟩
    split
    case isTrue later =>
      have rest := Move.sound_silent next (Nat.le_refl _)
      refine rest.after_part fits (by decide) rfl (fun _ => Iff.rfl) ?_
      rintro rfl
      simp at later
    case isFalse => exact Move.sound_silent next (length_le_part before part)
  case isFalse => exact goto_sound fits

private theorem closing_sound {closing : List UInt8} (trail : closing <:+ part)
    (ascii : StartsAscii closing) (ends : EndsAscii before) (close : Char.ofUInt8 b = '>')
    {report : Token}
    (is : report.span? = some ⟨before.length, (before ++ part).length - closing.length⟩)
    (means : ∀ source, report.Sound clean source ↔ Span.Cuts source
      ⟨before.length, (before ++ part).length - closing.length⟩ fun _ _ => True) :
    (toText (before ++ part).length [report]).Sound clean before.length (before ++ part) b := by
  obtain ⟨body, rfl⟩ := trail
  have low : b < 0x80 := lt_of_char close (by decide)
  have rest : (toText (before ++ (body ++ closing)).length).Sound clean
      (before ++ (body ++ closing)).length (before ++ (body ++ closing)) b :=
    toText_sound low (Nat.le_succ _)
  apply rest.after is
  · exact Nat.le_refl _
  · simp only [List.length_append]
    omega
  · exact Nat.sub_le _ _
  · intro rest
    rw [means]
    exact Span.cuts_body ends low ascii rest trivial

private theorem pair_suffix {byte : UInt8} {count : Nat} (enough : 2 ≤ count)
    (trail : List.replicate count byte <:+ part) : [byte, byte] <:+ part := by
  refine List.IsSuffix.trans ⟨List.replicate (count - 2) byte, ?_⟩ trail
  change List.replicate (count - 2) byte ++ List.replicate 2 byte = _
  rw [List.replicate_append_replicate, Nat.sub_add_cancel enough]

private theorem counted_suffix {byte : UInt8} {count : Nat}
    (trail : List.replicate count byte <:+ part) :
    List.replicate (if Char.ofUInt8 b == Char.ofUInt8 byte then count + 1 else 0) byte <:+
      part ++ [b] := by
  split
  case isTrue same =>
    obtain ⟨front, rfl⟩ := trail
    rw [eq_of_char (eq_of_beq same)]
    exact ⟨front, by rw [List.replicate_succ', List.append_assoc]⟩
  case isFalse => exact List.nil_suffix

private theorem instruction_sound {questioned : Bool}
    (fits : State.Fits clean before part (.instruction questioned)) (b : UInt8) :
    (step ⟨.instruction questioned, before.length⟩ (before ++ part).length b).Sound clean
      before.length (before ++ part) b := by
  dsimp only [step]
  split
  case isTrue ends =>
    obtain ⟨close, last⟩ := Bool.and_eq_true_iff.mp ends
    exact closing_sound (fits.2 last) (startsAscii_cons (by decide) _) fits.1 (eq_of_beq close) rfl
      fun _ => Iff.rfl
  case isFalse =>
    refine goto_sound ⟨fits.1, fun question => ?_⟩
    obtain rfl : b = 0x3F := eq_of_char (eq_of_beq question)
    exact List.suffix_append part (bytes "?")

private theorem comment_sound {dashes : Nat} (fits : State.Fits clean before part (.comment dashes))
    (b : UInt8) :
    (step ⟨.comment dashes, before.length⟩ (before ++ part).length b).Sound clean before.length
      (before ++ part) b := by
  dsimp only [step]
  split
  case isTrue ends =>
    obtain ⟨close, enough⟩ := Bool.and_eq_true_iff.mp ends
    exact closing_sound (pair_suffix (of_decide_eq_true enough) fits.2)
      (startsAscii_cons (by decide) _) fits.1 (eq_of_beq close) rfl fun _ => Iff.rfl
  case isFalse => exact goto_sound ⟨fits.1, counted_suffix fits.2⟩

private theorem cdata_sound {brackets : Nat} (fits : State.Fits clean before part (.cdata brackets))
    (b : UInt8) :
    (step ⟨.cdata brackets, before.length⟩ (before ++ part).length b).Sound clean before.length
      (before ++ part) b := by
  dsimp only [step]
  split
  case isTrue ends =>
    obtain ⟨close, enough⟩ := Bool.and_eq_true_iff.mp ends
    exact closing_sound (pair_suffix (of_decide_eq_true enough) fits.2)
      (startsAscii_cons (by decide) _) fits.1 (eq_of_beq close) rfl fun _ => Iff.rfl
  case isFalse => exact goto_sound ⟨fits.1, counted_suffix fits.2⟩

end Bodies

private theorem declaration_sound (state : State) (before part : List UInt8) :
    (declaration ⟨state, before.length⟩ (before ++ part).length b).Sound
      clean before.length (before ++ part) b := by
  unfold declaration
  split
  case isTrue close =>
    have order := length_le_part before part
    exact toText_sound (lt_of_char (eq_of_beq close) (by decide)) (by omega)
  case isFalse => exact goto_sound trivial

private theorem cdataMark_sound {matched : Nat}
    (fits : State.Fits clean before part (.cdataMark matched))
    (b : UInt8) :
    (step ⟨.cdataMark matched, before.length⟩ (before ++ part).length b).Sound clean before.length
      (before ++ part) b := by
  dsimp only [step]
  split
  case isTrue is =>
    split
    case isTrue =>
      exact skip_sound ⟨endsAscii_concat _ (lt_of_cdataMark (eq_of_beq is)), List.nil_suffix⟩
    case isFalse other =>
      have here : matched < cdataMark.length := fits
      have last : matched + 1 ≠ cdataMark.length := by simpa using other
      apply goto_sound
      change matched + 1 < cdataMark.length
      omega
  case isFalse => exact declaration_sound _ before part

/-- One byte leads from a state that fits to a state that fits. -/
theorem step_sound (fits : state.Fits clean before part) (b : UInt8) :
    (step ⟨state, before.length⟩ (before ++ part).length b).Sound clean before.length
      (before ++ part) b := by
  cases state with
  | text => exact text_sound fits b
  | beforeTagName => exact beforeTagName_sound fits b
  | tagName => exact tagName_sound fits b
  | emptyTag =>
    dsimp only [step]
    split
    case isTrue close =>
      have order := length_le_part before part
      refine toText_sound_point (lt_of_char (eq_of_beq close) (by decide)) (by omega) rfl
        fun rest => ?_
      simp [Token.Sound]
    case isFalse => exact refuse_sound _ trivial
  | beforeEndName => exact beforeEndName_sound fits b
  | endName => exact endName_sound fits b
  | afterEndName =>
    exact afterEndName_sound (Nat.le_refl _) (Nat.le_succ_of_le (length_le_part before part))
  | beforeAttributeName => exact beforeAttributeName_sound before part (.inl fits)
  | attributeName => exact attributeName_sound fits b
  | afterAttributeName => exact afterAttributeName_sound before part
  | beforeAttributeValue => exact beforeAttributeValue_sound before part b
  | attributeValue quote => exact attributeValue_sound fits b
  | beforeDeclaration =>
    dsimp only [step]
    split
    · exact skip_sound trivial
    split
    · exact skip_sound (Nat.succ_pos 5)
    · exact goto_sound trivial
  | declaration => exact declaration_sound _ before part
  | instruction questioned => exact instruction_sound fits b
  | beforeComment =>
    dsimp only [step]
    split
    case isTrue is =>
      exact skip_sound ⟨endsAscii_concat _ (lt_of_char (eq_of_beq is) (by decide)), List.nil_suffix⟩
    case isFalse => exact goto_sound trivial
  | comment dashes => exact comment_sound fits b
  | cdataMark matched => exact cdataMark_sound fits b
  | cdata brackets => exact cdata_sound fits b

end Cursor
end Variability.Markup
