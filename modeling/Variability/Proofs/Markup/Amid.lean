import Variability.Proofs.Markup.Continuation
import Variability.Proofs.Markup.Decoding

/-! A source that is cut off in the character data of an element. The lexer is in the
middle of a text, which began at some character, and the loader waits for nothing but the
end of the elements that are open. -/
namespace Variability.Markup
open Text

section Root
variable {heavy : String → Bool} {source : ByteArray} {l m : Loader}

def Loader.Rooted (l : Loader) : Prop := l.opened = [] ∨ l.root = none

private theorem Loader.Rooted.add (rooted : l.Rooted) (e : Element) : (l.add e).Rooted := by
  obtain ⟨opened, root, _⟩ := l
  cases opened with
  | nil => exact .inl rfl
  | cons parent outer => exact .inr (rooted.resolve_left nofun)

theorem Phrase.rooted_of_run (p : Phrase) (calm : l.Calm) (rooted : l.Rooted)
    (run : p.tokens.foldlM (Loader.step heavy source) l = .ok m) : m.Rooted := by
  cases p with
  | leaf leaf =>
    obtain skipping | ⟨opened, root, d, rfl⟩ := calm.cases
    · obtain ⟨_, rfl⟩ := (skipped_leaf_runs leaf skipping m).mp run
      exact rooted
    · cases opened with
      | nil =>
        obtain ⟨_, rfl⟩ := (outside_leaf_runs leaf root d m).mp run
        exact rooted
      | cons parent outer =>
        obtain ⟨_, rfl⟩ := (kept_leaf_runs leaf parent outer m).mp run
        exact .inr (rooted.resolve_left nofun)
  | start parts stop =>
    obtain drops | ⟨light, opened, root, d, rfl⟩ := calm.drops_cases (heavy (parts.tag source))
    · obtain ⟨_, rfl⟩ := (dropped_start_runs calm drops stop m).mp run
      exact rooted
    · obtain ⟨⟨admits, _⟩, rfl⟩ := (kept_tag_runs light false (fun _ => rfl) m).mp run
      refine .inr ?_
      rcases rooted with rfl | rootless
      · cases root with
        | none => rfl
        | some => contradiction
      · exact rootless
  | empty parts stop =>
    obtain drops | ⟨light, opened, root, d, rfl⟩ := calm.drops_cases (heavy (parts.tag source))
    · obtain ⟨_, rfl⟩ := (dropped_empty_runs calm drops stop m).mp run
      exact rooted
    · obtain ⟨_, rfl⟩ := (kept_tag_runs light true (fun _ => rfl) m).mp run
      exact rooted.add _
  | close name =>
    obtain ⟨opened, root, _, _, skipped, d⟩ := l
    obtain ⟨rfl, rfl⟩ := calm
    cases skipped with
    | cons tag skipped =>
      obtain ⟨_, rfl⟩ :=
        (skipped_close_runs ⟨opened, root, none, none, skipped, d⟩ tag name m).mp run
      exact rooted
    | nil =>
      cases opened with
      | cons parent opened =>
        obtain ⟨_, rfl⟩ := (kept_close_runs parent name m).mp run
        have rootless : Loader.Rooted ⟨opened, root, none, none, [], d⟩ :=
          .inr (rooted.resolve_left nofun)
        exact rootless.add _
      | nil => contradiction

theorem Phrase.rooted_of_runs {phrases : List Phrase} (calm : l.Calm) (rooted : l.Rooted)
    (run : (allTokens phrases).foldlM (Loader.step heavy source) l = .ok m) : m.Rooted := by
  induction phrases generalizing l with
  | nil =>
    obtain rfl := Except.ok.inj run
    exact rooted
  | cons p phrases ih =>
    rw [allTokens_cons, List.foldlM_append, bind_eq_ok_iff] at run
    obtain ⟨next, now, later⟩ := run
    exact ih (p.nest_of_run calm now).1 (p.rooted_of_run calm rooted now) later

end Root

section Amid
variable {source : String} {parent : OpenElement}

def readThrough (source : String) : Lexer := (bytes source).foldl Lexer.feed {}

def openText (source : String) : String :=
  slice source.toByteArray (readThrough source).cursor.mark source.utf8ByteSize

/-- The source is cut off in the character data of `parent`, an element that is kept, and
not in a reference. -/
structure InCharacterData (source : String) (parent : OpenElement) : Prop where
  text : (readThrough source).cursor.state = .text
  element : ∃ l outer,
    (readThrough source).reports.toList.foldlM (Loader.step isHeavy source.toByteArray) {} = .ok l ∧
      l.skipped = [] ∧ l.opened = parent :: outer
  closed : Unopened (openText source)

@[simp] theorem cursor_foldl_feed (l : Lexer) (read : List UInt8) :
    (read.foldl Lexer.feed l).cursor = (l.cursor.scan l.index read).1 := by
  induction read generalizing l with
  | nil => rfl
  | cons b read ih => exact ih (l.feed b)

@[simp] theorem cursor_readThrough (source : String) :
    (readThrough source).cursor = (Cursor.scan {} 0 (bytes source)).1 :=
  cursor_foldl_feed {} (bytes source)

@[simp] theorem reports_readThrough (source : String) :
    (readThrough source).reports.toList = (Cursor.scan {} 0 (bytes source)).2 :=
  toList_reports_foldl_feed {} (bytes source)

@[simp] theorem index_foldl_feed (l : Lexer) (read : List UInt8) :
    (read.foldl Lexer.feed l).index = l.index + read.length := by
  induction read generalizing l with
  | nil => rfl
  | cons b read ih => rw [List.foldl_cons, ih, Lexer.feed, List.length_cons, Nat.add_right_comm,
      Nat.add_assoc]

private theorem foldl_feed_of_silent {l : Lexer} {read : List UInt8} {c : Cursor}
    (silent : l.cursor.scan l.index read = (c, [])) :
    read.foldl Lexer.feed l = ⟨c, l.index + read.length, l.reports⟩ := by
  have cursor : (read.foldl Lexer.feed l).cursor = c := by rw [cursor_foldl_feed, silent]
  have reports : (read.foldl Lexer.feed l).reports = l.reports := by
    rw [← Array.toList_inj, toList_reports_foldl_feed, silent, List.append_nil]
  rw [← cursor, ← reports, ← index_foldl_feed]

@[simp] theorem readThrough_append (source more : String) :
    readThrough (source ++ more) = (bytes more).foldl Lexer.feed (readThrough source) := by
  rw [readThrough, bytes_append, List.foldl_append]
  rfl

@[simp] theorem index_readThrough (source : String) :
    (readThrough source).index = source.utf8ByteSize := by
  rw [readThrough, index_foldl_feed, length_bytes]
  exact Nat.zero_add _

theorem readThrough_append_of_silent {source more : String} {c : Cursor}
    (silent : (readThrough source).cursor.scan source.utf8ByteSize (bytes more) = (c, [])) :
    readThrough (source ++ more) =
      ⟨c, (source ++ more).utf8ByteSize, (readThrough source).reports⟩ := by
  rw [← index_readThrough source] at silent
  rw [readThrough_append, foldl_feed_of_silent silent, index_readThrough, length_bytes,
    String.utf8ByteSize_append]

private theorem Cursor.Sound.scan {c : Cursor} {read : List UInt8} (sound : c.Sound False read)
    {i : Nat} (here : i = read.length) (bs : List UInt8) :
    (c.scan i bs).1.Sound False (read ++ bs) := by
  induction bs generalizing c read i with
  | nil => rwa [List.append_nil]
  | cons b bs ih =>
    obtain ⟨before, part, rfl, mark, fits⟩ := sound
    have next := (Cursor.step_sound fits b).next.mono False.elim
    rw [← mark, ← here] at next
    rw [← List.singleton_append, ← List.append_assoc]
    exact ih next (by simp only [here, List.length_append, List.length_singleton])

theorem InCharacterData.exists_front (amid : InCharacterData source parent) :
    ∃ front, source = front ++ openText source ∧
      (Cursor.scan {} 0 (bytes source)).1 = ⟨.text, front.utf8ByteSize⟩ := by
  have state := amid.text
  have fresh : Cursor.Sound False [] {} := ⟨[], [], rfl, rfl, nofun⟩
  have sound := fresh.scan rfl (bytes source)
  unfold openText
  rw [cursor_readThrough] at state ⊢
  generalize (Cursor.scan {} 0 (bytes source)).1 = last at state sound ⊢
  obtain ⟨_, mark⟩ := last
  obtain rfl := state
  obtain ⟨before, part, split, rfl, ends⟩ := sound
  obtain ⟨front, back, rfl, rfl, rfl⟩ := exists_append_of_endsAscii split ends
  have cut := slice_between front back ""
  rw [String.append_empty] at cut
  rw [length_bytes, cut]
  exact ⟨front, rfl, rfl⟩

theorem InCharacterData.exists_loader (amid : InCharacterData source parent) :
    ∃ outer d,
      (Cursor.scan {} 0 (bytes source)).2.foldlM (Loader.step isHeavy source.toByteArray) {} =
        .ok { opened := parent :: outer, discarded := d } := by
  obtain ⟨⟨_, root, tag, attr, _, d⟩, outer, run, rfl, rfl⟩ := amid.element
  obtain ⟨front, _, state⟩ := amid.exists_front
  rw [reports_readThrough] at run
  have leads := Cursor.scan_leads {} 0 (bytes source) (clean_of_run run)
  rw [state] at leads
  obtain ⟨phrases, split⟩ := Draft.exists_phrases _ .nothing leads
  change (Cursor.scan {} 0 (bytes source)).2 = _ at split
  rw [split] at run ⊢
  obtain ⟨rfl, rfl⟩ := (Phrase.nest_of_runs ⟨rfl, rfl⟩ run).1
  have rooted := Phrase.rooted_of_runs ⟨rfl, rfl⟩ (.inl rfl) run
  obtain rfl : root = none := rooted.resolve_left nofun
  exact ⟨outer, d, run⟩

/-- One byte is not enough for anything to be reported. -/
theorem InCharacterData.two_le (amid : InCharacterData source parent) :
    2 ≤ source.utf8ByteSize := by
  obtain ⟨outer, d, run⟩ := amid.exists_loader
  by_contra short
  have silent : (Cursor.scan {} 0 (bytes source)).2 = [] := by
    rw [← length_bytes] at short
    match bytes source, short with
    | [], _ => rfl
    | [b], _ =>
      simp only [Cursor.scan, Cursor.step]
      split <;> rfl
    | _ :: _ :: _, short => simp at short
  rw [silent] at run
  have closed := congrArg Loader.opened (Except.ok.inj run)
  simp at closed

end Amid
end Variability.Markup
