import Variability.Proofs.Markup.Division
import Variability.Proofs.Markup.Spans

/-! What the loader makes of the bytes of a source does not depend on what follows
them. The reports on them stay the same, every place that the loader remembers lies
within them, and so does the place of a failure: once it has given up, no bytes that
come later change the error. -/
namespace Variability.Markup
open Text

section Places
variable {n : Nat}

def Span.Within (n : Nat) (span : Span) : Prop := span.start ≤ span.stop ∧ span.stop ≤ n

def Token.Within (n : Nat) : Token → Prop
  | .text span | .cdata span | .comment span | .instruction span | .startName span
  | .attributeName span | .attributeValue span | .endName span => span.Within n
  | .attributeEnd _ offset | .startEnd offset | .emptyEnd offset | .fault _ offset => offset ≤ n
  | .endOfSource => True

private theorem Span.Cuts.within {source : List UInt8} {span : Span}
    {holds : List UInt8 → List UInt8 → Prop} (cuts : span.Cuts source holds) :
    span.Within source.length := by
  obtain ⟨before, part, after, rfl, start, stop, _⟩ := cuts
  rw [Span.Within, start, stop]
  simp only [List.length_append]
  omega

theorem Token.Sound.within {clean : Prop} {source : List UInt8} {t : Token}
    (sound : t.Sound clean source) : t.Within source.length := by
  cases t with
  | attributeEnd | startEnd | emptyEnd | fault | endOfSource => exact sound
  | _ => exact Span.Cuts.within sound

theorem scan_within (source : List UInt8) :
    ∀ t ∈ (Cursor.scan {} 0 source).2, t.Within source.length := by
  intro t reported
  refine ((Lexer.run_stopped (fun _ => false) source).reports t ?_).within
  change t ∈ tokens source
  rw [tokens_eq_scan]
  exact List.mem_append_left _ (List.mem_append_left _ reported)

structure Loader.Within (n : Nat) (l : Loader) : Prop where
  tag : ∀ pending ∈ l.pendingTag, pending.offset ≤ n
  value : ∀ pending ∈ l.pendingAttribute, ∀ span ∈ pending.value, span.Within n

/-- It came out as it should, or failed at one of the first `n` bytes or at their end. -/
inductive Placed {α : Type} (n : Nat) (holds : α → Prop) : Except Failure α → Prop
  | ok {a : α} (fine : holds a) : Placed n holds (.ok a)
  | error {failure : Failure} (inside : failure.offset ≤ n) : Placed n holds (.error failure)

theorem Placed.bind {α β : Type} {holds : α → Prop} {holds' : β → Prop} {x : Except Failure α}
    {f : α → Except Failure β} (first : Placed n holds x)
    (next : ∀ a, holds a → Placed n holds' (f a)) : Placed n holds' (x >>= f) := by
  cases first with
  | ok fine => exact next _ fine
  | error inside => exact .error inside

private theorem Placed.offset_le {α : Type} {holds : α → Prop} {failure : Failure}
    (placed : Placed n holds (.error failure)) : failure.offset ≤ n := by
  cases placed with
  | error inside => exact inside

end Places

private theorem offset_le_of_decode {raw : String} {bad : BadReference}
    (fails : decode raw = .error bad) : bad.offset ≤ raw.utf8ByteSize := by
  rcases Division.exists_division raw with ⟨d, rfl⟩ | ⟨d, after, rfl, faulty⟩
  · rw [d.decode_raw] at fails
    contradiction
  · rw [d.decode_raw_append faulty] at fails
    obtain rfl := Except.error.inj fails
    rw [String.append_assoc, String.utf8ByteSize_append]
    exact Nat.le_add_right _ _

namespace Loader
variable {heavy : String → Bool} {source : ByteArray} {l : Loader} {n : Nat} {span : Span} {t : Token}

private theorem decodeSpan_placed (source : ByteArray) (inside : span.Within n) :
    Placed n (fun _ => True) (decodeSpan source span) := by
  unfold decodeSpan
  split
  case h_1 => exact .ok trivial
  case h_2 bad fails =>
    have size := utf8ByteSize_slice_le source span.start span.stop
    have offset := offset_le_of_decode fails
    obtain ⟨order, stop⟩ := inside
    apply Placed.error
    dsimp only
    omega

private theorem within_fresh (n : Nat) : Within n {} := ⟨nofun, nofun⟩

private theorem Within.add (within : l.Within n) (e : Element) : (l.add e).Within n := by
  unfold Loader.add
  split <;> exact ⟨within.tag, within.value⟩

private theorem Within.addText (within : l.Within n) (text : String) {offset : Nat}
    (inside : offset ≤ n) : Placed n (Within n) (l.addText text offset) := by
  unfold Loader.addText
  split
  case isTrue => exact .ok within
  split
  case h_1 => split <;> exact .ok ⟨within.tag, within.value⟩
  case h_2 => exact .error inside

private theorem Within.onText (within : l.Within n) (source : ByteArray) (inside : span.Within n) :
    Placed n (Within n) (l.onText source span) := by
  have start : span.start ≤ n := Nat.le_trans inside.1 inside.2
  unfold Loader.onText
  split
  case isTrue => exact .ok within
  split
  case isTrue => exact within.addText _ start
  case isFalse =>
    exact (decodeSpan_placed source inside).bind fun text _ => within.addText text start

private theorem Within.onCdata (within : l.Within n) (source : ByteArray) (inside : span.Within n) :
    Placed n (Within n) (l.onCdata source span) := by
  unfold Loader.onCdata
  split
  case isTrue => exact .ok within
  case isFalse => exact within.addText _ (Nat.le_trans inside.1 inside.2)

private theorem Within.onStartName (within : l.Within n) (heavy : String → Bool)
    (source : ByteArray)
    (inside : span.Within n) : Placed n (Within n) (l.onStartName heavy source span) := by
  have offset : span.start - 1 ≤ n :=
    Nat.le_trans (Nat.sub_le _ _) (Nat.le_trans inside.1 inside.2)
  unfold Loader.onStartName
  dsimp only
  split
  case isTrue => exact .error offset
  case isFalse =>
    refine .ok ⟨fun _ is => ?_, within.value⟩
    obtain rfl := Option.some.inj is
    exact offset

private theorem Within.onAttributeEnd (within : l.Within n) (source : ByteArray) :
    Placed n (Within n) (l.onAttributeEnd source) := by
  obtain ⟨opened, root, pendingTag, pendingAttribute, skipped, discarded⟩ := l
  obtain ⟨inTag, inValue⟩ := within
  obtain _ | ⟨name, value⟩ := pendingAttribute
  · exact .ok ⟨inTag, inValue⟩
  obtain _ | tag := pendingTag
  · exact .ok ⟨inTag, nofun⟩
  unfold Loader.onAttributeEnd
  dsimp only
  split
  · exact .ok ⟨inTag, nofun⟩
  have added (text : String) : Within n ⟨opened, root,
      some { tag with attributes := (name, text) :: tag.attributes }, none, skipped, discarded⟩ := by
    refine ⟨fun _ is => ?_, nofun⟩
    obtain rfl := Option.some.inj is
    exact inTag tag rfl
  obtain _ | span := value
  · exact .ok (added "")
  · have decoded := decodeSpan_placed source (inValue _ rfl span rfl)
    exact decoded.bind fun text _ => .ok (added text)

private theorem Within.onStartEnd (within : l.Within n) (empty : Bool) :
    Placed n (Within n) (l.onStartEnd empty) := by
  unfold Loader.onStartEnd
  split
  case h_1 => exact .ok within
  case h_2 tag is =>
    have left : Within n { l with pendingTag := none } := ⟨nofun, within.value⟩
    dsimp only
    split
    case isTrue => exact .ok ⟨nofun, within.value⟩
    split
    case isTrue => exact .error (within.tag tag is)
    case isFalse =>
      cases empty with
      | true => exact .ok (left.add _)
      | false => exact .ok ⟨nofun, within.value⟩

private theorem Within.onEndName (within : l.Within n) (source : ByteArray)
    (inside : span.Within n) : Placed n (Within n) (l.onEndName source span) := by
  have offset : span.start - 2 ≤ n :=
    Nat.le_trans (Nat.sub_le _ _) (Nat.le_trans inside.1 inside.2)
  unfold Loader.onEndName
  dsimp only
  split
  case h_1 =>
    split
    · exact .ok ⟨within.tag, within.value⟩
    · exact .error offset
  case h_2 =>
    split
    case h_1 element outer _ =>
      have left : Within n { l with opened := outer } := ⟨within.tag, within.value⟩
      split
      · exact .ok (left.add element.close)
      · exact .error offset
    case h_2 => exact .error offset

/-- Whatever the loader is told, it remembers only places within what is reported. -/
theorem Within.step (within : l.Within n) (heavy : String → Bool) (source : ByteArray)
    (inside : t.Within n) : Placed n (Within n) (step heavy source l t) := by
  cases t with
  | text span => exact within.onText source inside
  | cdata span => exact within.onCdata source inside
  | comment | instruction | endOfSource => exact .ok within
  | startName span => exact within.onStartName heavy source inside
  | attributeName span =>
    refine .ok ⟨within.tag, fun _ is => ?_⟩
    obtain rfl := Option.some.inj is
    exact nofun
  | attributeValue span =>
    refine .ok ⟨within.tag, fun pending is => ?_⟩
    obtain ⟨_, _, rfl⟩ := Option.map_eq_some_iff.mp is
    intro _ written
    obtain rfl := Option.some.inj written
    exact inside
  | attributeEnd => exact within.onAttributeEnd source
  | startEnd | emptyEnd => exact within.onStartEnd _
  | endName span => exact within.onEndName source inside
  | fault fault offset => exact .error inside

theorem Within.run (within : l.Within n) (heavy : String → Bool) (source : ByteArray)
    {reports : List Token} (inside : ∀ t ∈ reports, t.Within n) :
    Placed n (Within n) (reports.foldlM (Loader.step heavy source) l) := by
  induction reports generalizing l with
  | nil => exact .ok within
  | cons t reports ih =>
    rw [List.forall_mem_cons] at inside
    rw [List.foldlM_cons]
    exact (within.step heavy source inside.1).bind fun next within => ih within inside.2

section Alike
variable {first second : ByteArray}
  (same : ∀ start stop, stop ≤ n → slice first start stop = slice second start stop)
include same

private theorem decodeSpan_alike (inside : span.Within n) :
    decodeSpan first span = decodeSpan second span := by
  rw [decodeSpan, decodeSpan, same _ _ inside.2]

theorem step_alike (within : l.Within n) (inside : t.Within n) :
    step heavy first l t = step heavy second l t := by
  cases t with
  | text span =>
    simp only [step, onText, same span.start span.stop inside.2, decodeSpan_alike same inside]
  | cdata span => simp only [step, onCdata, same span.start span.stop inside.2]
  | startName span => simp only [step, onStartName, same span.start span.stop inside.2]
  | attributeName span => simp only [step, same span.start span.stop inside.2]
  | endName span => simp only [step, onEndName, same span.start span.stop inside.2]
  | attributeEnd quote offset =>
    unfold step onAttributeEnd
    dsimp only
    split
    · rfl
    case h_2 pending is =>
      -- the value has been remembered as a span, which is only read here
      have value := within.value pending is
      cases written : pending.value with
      | none => rfl
      | some span => simp only [decodeSpan_alike same (value span written)]
  | comment | instruction | attributeValue | startEnd | emptyEnd | fault | endOfSource => rfl

theorem run_alike {reports : List Token} (within : l.Within n)
    (inside : ∀ t ∈ reports, t.Within n) :
    reports.foldlM (step heavy first) l = reports.foldlM (step heavy second) l := by
  induction reports generalizing l with
  | nil => rw [List.foldlM_nil, List.foldlM_nil]
  | cons t reports ih =>
    rw [List.forall_mem_cons] at inside
    rw [List.foldlM_cons, List.foldlM_cons, step_alike same within inside.1]
    have placed := within.step heavy second inside.1
    generalize step heavy second l t = outcome at placed
    cases placed with
    | ok within => exact ih within inside.2
    | @error failure inside => exact Eq.refl (Except.error failure)

end Alike
end Loader

section Continued
variable {heavy : String → Bool} {source : String}

/-- Whatever follows, the loader makes the same of the reports on the source. -/
theorem scan_alike (heavy : String → Bool) (source more : String) :
    (Cursor.scan {} 0 (bytes source)).2.foldlM (Loader.step heavy (source ++ more).toByteArray) {} =
      (Cursor.scan {} 0 (bytes source)).2.foldlM (Loader.step heavy source.toByteArray) {} := by
  refine Loader.run_alike (fun start stop inside => ?_) (Loader.within_fresh _)
    (scan_within (bytes source))
  rw [length_bytes] at inside
  rw [String.toByteArray_append, slice_append_left _ _ _ inside]

theorem ofOffset_append {before : List UInt8} {offset : Nat} (inside : offset ≤ before.length)
    (after : List UInt8) :
    Position.ofOffset (before ++ after) offset = Position.ofOffset before offset := by
  rw [Position.ofOffset, Position.ofOffset, List.take_append_of_le_length inside]

@[simp] theorem toList_reports_foldl_feed (l : Lexer) (read : List UInt8) :
    (read.foldl Lexer.feed l).reports.toList =
      l.reports.toList ++ (l.cursor.scan l.index read).2 := by
  induction read generalizing l with
  | nil => simp
  | cons b read ih =>
    rw [List.foldl_cons, ih, Lexer.toList_reports_feed, List.append_assoc]
    rfl

/-- The loader gives up on a report that is made at a byte of the source, and not
only when the source is at its end. -/
def FailsAmid (heavy : String → Bool) (source : String) (failure : Failure) : Prop :=
  ((bytes source).foldl Lexer.feed {}).reports.toList.foldlM
    (Loader.step heavy source.toByteArray) {} = .error failure

def Failure.located (failure : Failure) (source : String) : LoadError :=
  ⟨failure.fault, Position.ofOffset (bytes source) failure.offset⟩

private theorem failsAmid_iff {failure : Failure} :
    FailsAmid heavy source failure ↔
      (Cursor.scan {} 0 (bytes source)).2.foldlM (Loader.step heavy source.toByteArray) {} =
        .error failure := by
  rw [FailsAmid, toList_reports_foldl_feed]
  rfl

theorem load_append_of_failsAmid {failure : Failure} (fails : FailsAmid heavy source failure)
    (more : String) : load heavy (source ++ more) = .error (failure.located source) := by
  rw [failsAmid_iff] at fails
  have placed := (Loader.within_fresh _).run heavy source.toByteArray (scan_within (bytes source))
  rw [fails] at placed
  have same := scan_alike heavy source more
  rw [fails] at same
  -- the reports on the source come first, and the loader never sees the others
  have run : (tokens (bytes (source ++ more))).foldlM
      (Loader.step heavy (source ++ more).toByteArray) {} = .error failure := by
    rw [tokens_eq_scan, bytes_append, Cursor.scan_append, List.append_assoc, List.append_assoc,
      List.foldlM_append, same]
    rfl
  rw [load, run, bytes_append]
  dsimp only
  rw [ofOffset_append placed.offset_le]
  rfl

end Continued

theorem dropMark_append {source : String} (more : String) (nonempty : source ≠ "") :
    dropMark (source ++ more) = dropMark source ++ more := by
  cases split : source.toList with
  | nil => exact absurd (String.toList_eq_nil_iff.mp split) nonempty
  | cons c rest =>
    have split' : (source ++ more).toList = c :: (rest ++ more.toList) := by
      rw [String.toList_append, split, List.cons_append]
    simp only [dropMark, split, split']
    cases c.toNat == 0xFEFF with
    | true => simp
    | false => rfl

/-- A source that has failed at one of its bytes fails in the same way and at the same
place, whatever follows it. -/
theorem loadText_append_of_failsAmid (source : String) (failure : Failure)
    (fails : FailsAmid isHeavy (dropMark source) failure) :
    loadText source = .error (failure.located (dropMark source)) ∧
      ∀ more, loadText (source ++ more) = .error (failure.located (dropMark source)) := by
  have nonempty : source ≠ "" := by
    rintro rfl
    contradiction
  constructor
  · have alone := load_append_of_failsAmid fails ""
    rw [String.append_empty] at alone
    exact alone
  · intro more
    rw [loadText, dropMark_append more nonempty]
    exact load_append_of_failsAmid fails more

theorem loadText_append_of_mismatch :
    FailsAmid isHeavy (dropMark "<a>\n&lt;</b>") ⟨.mismatchedEndTag "a" "b", 8⟩ ∧
      loadText "<a>\n&lt;</b>" = .error ⟨.mismatchedEndTag "a" "b", ⟨8, 2, 5⟩⟩ ∧
      ∀ more, loadText ("<a>\n&lt;</b>" ++ more) =
        .error ⟨.mismatchedEndTag "a" "b", ⟨8, 2, 5⟩⟩ :=
  ⟨rfl, loadText_append_of_failsAmid "<a>\n&lt;</b>" ⟨.mismatchedEndTag "a" "b", 8⟩ rfl⟩

end Variability.Markup
