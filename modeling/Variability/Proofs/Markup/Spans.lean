import Variability.Proofs.Markup.Acceptance
import Variability.Proofs.Markup.Sections

/-! Whenever the lexer stops, each part that it has reported can be cut out of the
source, and the parts come one after another. A loader that gives up at the first
fault sees names only where a tag has been opened for them. -/
namespace Variability.Markup
open Text

namespace Lexer

structure Sound (clean : Prop) (source read : List UInt8) (l : Lexer) : Prop where
  index : l.index = read.length
  cursor : l.cursor.Sound (l.faultCount = 0) read
  reports : ∀ t ∈ l.reports.toList, t.Sound clean source
  passed : ∀ span ∈ l.reports.toList.filterMap Token.span?, span.stop ≤ l.cursor.mark
  ordered : (l.reports.toList.filterMap Token.span?).Pairwise (·.stop ≤ ·.start)

structure Stopped (clean : Prop) (source : List UInt8) (l : Lexer) : Prop where
  cursor : ∃ read, l.cursor.Sound False read
  reports : ∀ t ∈ l.reports.toList, t.Sound clean source
  ordered : (l.reports.toList.filterMap Token.span?).Pairwise (·.stop ≤ ·.start)

section Runs
variable {clean : Prop} {source read rest : List UInt8} {l : Lexer} {b : UInt8}

@[simp] theorem toList_reports_feed (l : Lexer) (b : UInt8) :
    (l.feed b).reports.toList = l.reports.toList ++ (l.cursor.step l.index b).reports := by
  simp [feed]

@[simp] theorem toList_reports_finish (l : Lexer) :
    l.finish.reports.toList = l.reports.toList ++ l.cursor.atEnd l.index ++ [.endOfSource] := by
  simp [finish]

private theorem faultCount_eq_zero_iff (l : Lexer) :
    l.faultCount = 0 ↔ ∀ t ∈ l.reports.toList, t.isFault = false := by
  simp [faultCount]

private theorem sound_fresh (clean : Prop) (source : List UInt8) : Sound clean source [] {} where
  index := rfl
  cursor := ⟨[], [], rfl, rfl, nofun⟩
  reports := nofun
  passed := nofun
  ordered := .nil

theorem Sound.feed (sound : l.Sound clean source read) (split : source = read ++ b :: rest)
    (kept : clean → l.faultCount = 0) : (l.feed b).Sound clean source (read ++ [b]) := by
  obtain ⟨before, part, rfl, mark, fits⟩ := sound.cursor
  have move := Cursor.step_sound fits b
  rw [← mark, ← sound.index] at move
  change (l.cursor.step l.index b).Sound _ _ _ _ at move
  refine ⟨?_, ?_, ?_, ?_, ?_⟩
  · rw [List.length_append, ← sound.index]
    rfl
  · refine move.next.mono fun clean => ?_
    rw [faultCount_eq_zero_iff, toList_reports_feed, List.forall_mem_append] at clean
    exact ⟨(faultCount_eq_zero_iff l).mpr clean.1, clean.2⟩
  · rw [toList_reports_feed, List.forall_mem_append]
    refine ⟨sound.reports, fun t reported => ?_⟩
    rw [split]
    exact (move.reports rest t reported).mono kept
  · rw [toList_reports_feed, List.filterMap_append, List.forall_mem_append]
    refine ⟨fun span found => ?_, fun span found => (move.placed span found).2⟩
    exact Nat.le_trans (sound.passed span found) move.grows
  · rw [toList_reports_feed, List.filterMap_append, List.pairwise_append]
    refine ⟨sound.ordered, move.ordered, fun first found later found' => ?_⟩
    exact Nat.le_trans (sound.passed first found) (move.placed later found').1

theorem Sound.atEnd (sound : l.Sound clean source source) :
    ∀ t ∈ l.cursor.atEnd l.index, t.Sound clean source := by
  intro t reported
  obtain ⟨before, part, rfl, mark, fits⟩ := sound.cursor
  rcases l.cursor.atEnd_cases l.index with ⟨inText, last⟩ | ⟨_, fault, _, last⟩
  · rw [last, mark, sound.index] at reported
    rw [inText] at fits
    split at reported
    case isTrue later =>
      rw [List.mem_singleton.mp reported]
      refine ⟨before, part, [], (List.append_nil _).symm, rfl, rfl, fits, nofun, ?_⟩
      rintro rfl
      simp at later
    case isFalse => contradiction
  · rw [last] at reported
    rw [List.mem_singleton.mp reported]
    exact Nat.le_of_eq sound.index

private theorem spans_atEnd (c : Cursor) (i : Nat) :
    (c.atEnd i).filterMap Token.span? = [] ∨ (c.atEnd i).filterMap Token.span? = [⟨c.mark, i⟩] := by
  rcases c.atEnd_cases i with ⟨_, last⟩ | ⟨_, fault, _, last⟩
  · rw [last]
    split
    · exact .inr rfl
    · exact .inl rfl
  · rw [last]
    exact .inl rfl

theorem Sound.finish (sound : l.Sound clean source source) : l.finish.Stopped clean source := by
  refine ⟨⟨source, sound.cursor.mono False.elim⟩, ?_, ?_⟩
  · rw [toList_reports_finish, List.forall_mem_append, List.forall_mem_append]
    exact ⟨⟨sound.reports, sound.atEnd⟩, List.forall_mem_singleton.mpr trivial⟩
  · have last : [Token.endOfSource].filterMap Token.span? = [] := rfl
    rw [toList_reports_finish, List.filterMap_append, List.filterMap_append, last, List.append_nil]
    rcases spans_atEnd l.cursor l.index with silent | one
    · rw [silent, List.append_nil]
      exact sound.ordered
    · rw [one, List.pairwise_append]
      refine ⟨sound.ordered, List.pairwise_singleton _ _, fun span found later found' => ?_⟩
      rw [List.mem_singleton.mp found']
      exact sound.passed span found

theorem Sound.run {enough : Lexer → Bool} (sound : l.Sound clean source read)
    (kept : clean → ∀ l, enough l = false → l.faultCount = 0) (split : source = read ++ rest) :
    (run enough l rest).Stopped clean source := by
  induction rest generalizing l read with
  | nil =>
    rw [List.append_nil] at split
    subst split
    exact sound.finish
  | cons b rest ih =>
    unfold Lexer.run
    split
    case isTrue => exact ⟨⟨read, sound.cursor.mono False.elim⟩, sound.reports, sound.ordered⟩
    case isFalse goes =>
      have fed := sound.feed split fun clean => kept clean l (Bool.eq_false_iff.mpr goes)
      exact ih fed (by rw [split, List.append_assoc]; rfl)

theorem run_stopped (enough : Lexer → Bool) (source : List UInt8) :
    (run enough {} source).Stopped False source :=
  (sound_fresh False source).run nofun rfl

theorem runUpTo_one_stopped (source : List UInt8) : (runUpTo 1 source).Stopped True source := by
  refine (sound_fresh True source).run (fun _ l goes => ?_) rfl
  simpa using goes

theorem Stopped.matched_lt {matched : Nat} (stopped : l.Stopped clean source)
    (reading : l.cursor.state = .cdataMark matched) : matched < cdataMark.length := by
  obtain ⟨_, _, _, _, _, fits⟩ := stopped.cursor
  rw [reading] at fits
  exact fits

/-- The loader gives up at the first fault, whatever else would be reported. -/
theorem load_run_up_to (heavy : String → Bool) (file : ByteArray) (m : Loader) (l : Lexer)
    (rest : List UInt8) :
    (run (1 ≤ ·.faultCount) l rest).reports.toList.foldlM (Loader.step heavy file) m =
      (run (fun _ => false) l rest).reports.toList.foldlM (Loader.step heavy file) m := by
  induction rest generalizing l with
  | nil => rfl
  | cons b rest ih =>
    rw [run]
    split
    case isTrue faulty =>
      rw [Cursor.run_reports, List.append_assoc, List.append_assoc, List.foldlM_append]
      -- one of the reports so far is a fault, so those that follow are not read
      cases result : l.reports.toList.foldlM (Loader.step heavy file) m with
      | error failure => rfl
      | ok next =>
        have faultless := (faultCount_eq_zero_iff l).mpr (clean_of_run result)
        simp [faultless] at faulty
    case isFalse => exact ih (l.feed b)

end Runs
end Lexer

section Texts
variable {source : String} {span : Span} {holds : List UInt8 → List UInt8 → Prop}

theorem Span.Cuts.exists_text (cuts : span.Cuts (bytes source) holds) :
    ∃ before text after, source = before ++ text ++ after ∧ span.start = before.utf8ByteSize ∧
      span.stop = (before ++ text).utf8ByteSize ∧ holds (bytes before) (bytes text) := by
  obtain ⟨before, part, rest, split, start, stop, ends, starts, fits⟩ := cuts
  obtain ⟨front, after, rfl, whole, _⟩ := exists_append_of_startsAscii split starts
  obtain ⟨before, text, rfl, rfl, rfl⟩ := exists_append_of_endsAscii whole ends
  rw [← bytes_append, length_bytes] at stop
  rw [length_bytes] at start
  exact ⟨before, text, after, rfl, start, stop, fits⟩

/-- The span begins and ends between two characters of the source. -/
structure Span.IsPart (source : String) (span : Span) : Prop where
  ordered : span.start ≤ span.stop
  inside : span.stop ≤ source.utf8ByteSize
  starts : String.Pos.Raw.IsValid source ⟨span.start⟩
  stops : String.Pos.Raw.IsValid source ⟨span.stop⟩

theorem Span.Cuts.isPart (cuts : span.Cuts (bytes source) holds) : span.IsPart source := by
  obtain ⟨before, text, after, rfl, start, stop, _⟩ := cuts.exists_text
  refine ⟨?_, ?_, ?_, ?_⟩
  · rw [start, stop, String.utf8ByteSize_append]
    omega
  · rw [stop, String.utf8ByteSize_append, String.utf8ByteSize_append, String.utf8ByteSize_append]
    omega
  · rw [String.Pos.Raw.isValid_iff_exists_append]
    exact ⟨before, text ++ after, String.append_assoc, congrArg String.Pos.Raw.mk start⟩
  · rw [String.Pos.Raw.isValid_iff_exists_append]
    exact ⟨before ++ text, after, rfl, congrArg String.Pos.Raw.mk stop⟩

theorem Span.Cuts.lt (cuts : span.Cuts (bytes source) holds)
    (nonempty : ∀ before part, holds before part → part ≠ []) : span.start < span.stop := by
  obtain ⟨before, part, _, _, start, stop, _, _, fits⟩ := cuts
  have := List.length_pos_iff.mpr (nonempty before part fits)
  rw [start, stop, List.length_append]
  omega

def Span.Follows (source opening : String) (span : Span) : Prop :=
  ∃ before after, source = before ++ opening ++ after ∧
    span.start = (before ++ opening).utf8ByteSize

theorem Span.Cuts.follows {opening : String} (ascii : StartsAscii (bytes opening))
    (cuts : span.Cuts (bytes source) holds)
    (opened : ∀ before part, holds before part → bytes opening <:+ before) :
    span.Follows source opening := by
  obtain ⟨before, text, after, rfl, start, _, fits⟩ := cuts.exists_text
  obtain ⟨front, split⟩ := opened _ _ fits
  obtain ⟨before, last, rfl, _, same⟩ := exists_append_of_startsAscii split.symm ascii
  obtain rfl := bytes_inj.mp same
  exact ⟨before, text ++ after, String.append_assoc, start⟩

end Texts

def Token.mayBeEmpty : Token → Bool
  | .cdata _ | .comment _ | .instruction _ => true
  | _ => false

section Reports
variable {source : String} {t : Token} {span : Span}

theorem Token.Sound.isPart {clean : Prop} (sound : t.Sound clean (bytes source))
    (is : t.span? = some span) :
    span.IsPart source ∧ (t.mayBeEmpty = false → span.start < span.stop) := by
  cases t with
  | text | attributeValue =>
    obtain rfl := Option.some.inj is
    exact ⟨Span.Cuts.isPart sound, fun _ => Span.Cuts.lt sound fun _ _ nonempty => nonempty⟩
  | cdata | comment | instruction =>
    obtain rfl := Option.some.inj is
    exact ⟨Span.Cuts.isPart sound, nofun⟩
  | startName | endName =>
    obtain rfl := Option.some.inj is
    exact ⟨Span.Cuts.isPart sound, fun _ => Span.Cuts.lt sound fun _ _ fits => fits.1.ne_nil⟩
  | attributeName =>
    obtain rfl := Option.some.inj is
    exact ⟨Span.Cuts.isPart sound, fun _ => Span.Cuts.lt sound fun _ _ name => name.ne_nil⟩
  | attributeEnd | startEnd | emptyEnd | fault | endOfSource => contradiction

end Reports

/-- The lexer only reports parts of the source, whenever it is told to stop, and for
the loader it stops at the first fault. -/
theorem reported_spans (source : String) :
    (∀ enough : Lexer → Bool,
      (∀ t ∈ (Lexer.run enough {} (bytes source)).reports.toList, ∀ span, t.span? = some span →
        span.IsPart source ∧ (t.mayBeEmpty = false → span.start < span.stop)) ∧
      ((Lexer.run enough {} (bytes source)).reports.toList.filterMap Token.span?).Pairwise
        (·.stop ≤ ·.start) ∧
      ∀ read, read <+: bytes source → ∀ matched,
        (Lexer.run enough {} read).cursor.state = .cdataMark matched →
          matched < cdataMark.length) ∧
    (∀ span, .startName span ∈ (Lexer.runUpTo 1 (bytes source)).reports.toList →
      span.Follows source "<") ∧
    (∀ span, .endName span ∈ (Lexer.runUpTo 1 (bytes source)).reports.toList →
      span.Follows source "</") ∧
    ∀ heavy l, (tokens (bytes source)).foldlM (Loader.step heavy source.toByteArray) l =
      (Lexer.runUpTo 1 (bytes source)).reports.toList.foldlM
        (Loader.step heavy source.toByteArray) l := by
  have first := Lexer.runUpTo_one_stopped (bytes source)
  refine ⟨fun enough => ?_, fun span reported => ?_, fun span reported => ?_, fun heavy l => ?_⟩
  · have stopped := Lexer.run_stopped enough (bytes source)
    refine ⟨fun t reported span is => ?_, stopped.ordered, fun read _ matched => ?_⟩
    · exact (stopped.reports t reported).isPart is
    · exact (Lexer.run_stopped enough read).matched_lt
  · have sound : span.Cuts _ _ := first.reports _ reported
    exact sound.follows (startsAscii_cons (by decide) _) fun _ _ fits => fits.2 trivial
  · have sound : span.Cuts _ _ := first.reports _ reported
    exact sound.follows (startsAscii_cons (by decide) _) fun _ _ fits => fits.2 trivial
  · exact (Lexer.load_run_up_to heavy source.toByteArray l {} (bytes source)).symm

end Variability.Markup
