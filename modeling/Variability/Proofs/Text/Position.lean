import Mathlib.Data.List.Basic
import Mathlib.Data.List.Induction
import Variability.Text.Position

/-! Lines and columns tell the offsets of a source apart and keep their order. A position
moves on with each byte, to the next column or behind a line feed to the next line, and
no number outgrows its 32 bits as long as the source is short enough. -/
namespace Variability.Text

private theorem narrow_of_lt {n : Nat} (small : n < UInt32.size) :
    narrow n = n := Nat.mod_eq_of_lt small

/-- The offsets at which the lines begin: the first one, and those behind a line feed. -/
def lineStarts (source : List UInt8) : List Nat := 0 :: source.idxsOf lineFeed 1

@[simp] theorem length_lineStarts (source : List UInt8) :
    (lineStarts source).length = source.count lineFeed + 1 := by
  rw [lineStarts, List.length_cons, List.length_idxsOf]

theorem lineStarts_append (before after : List UInt8) :
    lineStarts (before ++ after) =
      lineStarts before ++ after.idxsOf lineFeed (1 + before.length) := by
  rw [lineStarts, List.idxsOf_append, lineStarts, List.cons_append]

@[simp] theorem lineStarts_concat_lineFeed (before : List UInt8) :
    lineStarts (before ++ [lineFeed]) = lineStarts before ++ [before.length + 1] := by
  rw [lineStarts_append, Nat.add_comm]
  rfl

private theorem lineStarts_concat_of_ne (before : List UInt8) {b : UInt8} (other : b ≠ lineFeed) :
    lineStarts (before ++ [b]) = lineStarts before := by
  rw [lineStarts_append, List.idxsOf_cons, if_neg (by simpa using other), List.idxsOf_nil,
    List.append_nil]

namespace Position

def origin : Position := ⟨0, 1, 1⟩

def advance (p : Position) (b : UInt8) : Position :=
  if b = lineFeed then ⟨p.offset + 1, p.line + 1, 1⟩ else ⟨p.offset + 1, p.line, p.column + 1⟩

@[simp] theorem advance_lineFeed (p : Position) :
    p.advance lineFeed = ⟨p.offset + 1, p.line + 1, 1⟩ := if_pos rfl

private theorem advance_of_ne (p : Position) {b : UInt8} (other : b ≠ lineFeed) :
    p.advance b = ⟨p.offset + 1, p.line, p.column + 1⟩ := if_neg other

theorem foldl_advance (before : List UInt8) :
    before.foldl advance origin =
      ⟨before.length, before.count lineFeed + 1,
        (before.reverse.takeWhile (· != lineFeed)).length + 1⟩ := by
  induction before using List.reverseRecOn with
  | nil => rfl
  | append_singleton before b ih =>
    rw [List.foldl_concat, ih]
    by_cases feed : b = lineFeed
    · rw [feed, advance_lineFeed]
      simp
    · rw [advance_of_ne _ feed]
      simp [feed]

theorem ofOffset_eq_foldl {source : List UInt8} (short : source.length < UInt32.size - 1)
    (offset : Nat) : ofOffset source offset = (source.take offset).foldl advance origin := by
  have read : (source.take offset).length ≤ source.length := List.length_take_le' offset source
  have lines : (source.take offset).count lineFeed ≤ (source.take offset).length :=
    List.count_le_length
  have columns : ((source.take offset).reverse.takeWhile (· != lineFeed)).length ≤
      (source.take offset).reverse.length := (List.takeWhile_sublist _).length_le
  rw [List.length_reverse] at columns
  rw [foldl_advance, ofOffset, narrow_of_lt (by omega), narrow_of_lt (by omega),
    narrow_of_lt (by omega)]

def Precedes (p q : Position) : Prop :=
  p.line < q.line ∨ p.line = q.line ∧ p.column < q.column

theorem Precedes.trans {p q r : Position} (first : p.Precedes q) (second : q.Precedes r) :
    p.Precedes r := by
  unfold Precedes at *
  omega

private theorem precedes_advance (p : Position) (b : UInt8) : p.Precedes (p.advance b) := by
  by_cases feed : b = lineFeed
  · rw [feed, advance_lineFeed]
    exact .inl (Nat.lt_succ_self p.line)
  · rw [advance_of_ne p feed]
    exact .inr ⟨rfl, Nat.lt_succ_self p.column⟩

theorem precedes_foldl_advance (p : Position) (b : UInt8) (more : List UInt8) :
    p.Precedes ((b :: more).foldl advance p) := by
  induction more generalizing p b with
  | nil => exact precedes_advance p b
  | cons c more ih => exact (precedes_advance p b).trans (ih (p.advance b) c)

/-- The position is the one behind these bytes: on their last line, which begins at the
offset `start`, and as far along it as there are bytes. -/
structure Located (before : List UInt8) (p : Position) (start : Nat) : Prop where
  line : p.line = (lineStarts before).length
  begins : (lineStarts before).getLast? = some start
  reached : start ≤ before.length
  column : p.column = before.length - start + 1
  unbroken : lineFeed ∉ before.drop start

private theorem located_origin : Located [] origin 0 where
  line := rfl
  begins := rfl
  reached := Nat.le_refl 0
  column := rfl
  unbroken := List.not_mem_nil

section Step
variable {before : List UInt8} {p : Position} {start : Nat}

theorem Located.advance_lineFeed (located : Located before p start) :
    Located (before ++ [lineFeed]) (p.advance lineFeed) (before.length + 1) where
  line := by
    rw [Position.advance_lineFeed, lineStarts_concat_lineFeed, List.length_append, ← located.line]
    rfl
  begins := by rw [lineStarts_concat_lineFeed, List.getLast?_concat]
  reached := by simp
  column := by
    rw [Position.advance_lineFeed, List.length_append, List.length_singleton, Nat.sub_self]
  unbroken := by simp

theorem Located.advance_of_ne (located : Located before p start) {b : UInt8}
    (other : b ≠ lineFeed) : Located (before ++ [b]) (p.advance b) start where
  line := by rw [Position.advance_of_ne p other, lineStarts_concat_of_ne before other, located.line]
  begins := by rw [lineStarts_concat_of_ne before other, located.begins]
  reached := by
    rw [List.length_append]
    exact Nat.le_add_right_of_le located.reached
  column := by
    have reached := located.reached
    rw [Position.advance_of_ne p other, located.column, List.length_append, List.length_singleton]
    dsimp only
    omega
  unbroken := by
    rw [List.drop_append_of_le_length located.reached, List.mem_append, List.mem_singleton]
    rintro (inside | same)
    · exact located.unbroken inside
    · exact other same.symm

end Step

theorem exists_located (before : List UInt8) :
    ∃ start, Located before (before.foldl advance origin) start := by
  -- the last byte is the one that the position moves on with
  induction before using List.reverseRecOn with
  | nil => exact ⟨0, located_origin⟩
  | append_singleton before b ih =>
    obtain ⟨start, located⟩ := ih
    rw [List.foldl_concat]
    by_cases feed : b = lineFeed
    · rw [feed]
      exact ⟨_, located.advance_lineFeed⟩
    · exact ⟨_, located.advance_of_ne feed⟩

theorem Located.lineStarts_getElem? {before : List UInt8} {p : Position} {start : Nat}
    (located : Located before p start) (after : List UInt8) :
    (lineStarts (before ++ after))[p.line - 1]? = some start := by
  have filled : p.line - 1 < (lineStarts before).length := by
    rw [located.line, length_lineStarts]
    omega
  rw [lineStarts_append, List.getElem?_append_left filled, located.line,
    ← List.getLast?_eq_getElem?, located.begins]

theorem Located.getElem?_ne_lineFeed {source : List UInt8} {offset : Nat} {p : Position}
    {start : Nat} (located : Located (source.take offset) p start) {i : Nat} (onward : start ≤ i)
    (read : i < offset) : source[i]? ≠ some lineFeed := by
  intro feed
  apply located.unbroken
  apply List.mem_of_getElem? (i := i - start)
  rw [List.getElem?_drop, Nat.add_sub_cancel' onward, List.getElem?_take_of_lt read, feed]

section Short
variable {source : List UInt8}

theorem exists_located_ofOffset (short : source.length < UInt32.size - 1) (offset : Nat) :
    ∃ start, Located (source.take offset) (ofOffset source offset) start := by
  rw [ofOffset_eq_foldl short]
  exact exists_located (source.take offset)

theorem precedes_ofOffset (short : source.length < UInt32.size - 1) {first second : Nat}
    (less : first < second) (within : second ≤ source.length) :
    (ofOffset source first).Precedes (ofOffset source second) := by
  -- between the two offsets there is at least one byte
  obtain ⟨n, rfl⟩ := Nat.exists_eq_add_of_lt less
  have further : source.take (first + n + 1) =
      source.take first ++ source[first] :: (source.drop (first + 1)).take n := by
    rw [Nat.add_assoc, List.take_add, List.drop_eq_getElem_cons, List.take_succ_cons]
  rw [ofOffset_eq_foldl short, ofOffset_eq_foldl short, further, List.foldl_append]
  exact precedes_foldl_advance _ _ _

end Short

/-- In a source that is short enough, a later offset has a later position, and an offset
is found from its position: from where the line begins, on along the line as the column
says. Offsets past the end have the position of the end. -/
theorem ofOffset_identifies (source : List UInt8) (short : source.length < UInt32.size - 1) :
    (∀ first second, first < second → second ≤ source.length →
      (ofOffset source first).Precedes (ofOffset source second)) ∧
    (∀ offset, offset ≤ source.length → ∃ start,
      1 ≤ (ofOffset source offset).line ∧ 1 ≤ (ofOffset source offset).column ∧
      (lineStarts source)[(ofOffset source offset).line - 1]? = some start ∧
      offset = start + ((ofOffset source offset).column - 1) ∧
      ∀ i, start ≤ i → i < offset → source[i]? ≠ some lineFeed) ∧
    ∀ offset, source.length ≤ offset →
      ofOffset source offset = ofOffset source source.length := by
  refine ⟨fun first second => precedes_ofOffset short, fun offset within => ?_,
    fun offset beyond => ?_⟩
  · obtain ⟨start, located⟩ := exists_located_ofOffset short offset
    have begins := located.lineStarts_getElem? (source.drop offset)
    rw [List.take_append_drop] at begins
    have line := located.line
    have reached := located.reached
    have column := located.column
    rw [length_lineStarts] at line
    rw [List.length_take_of_le within] at reached column
    exact ⟨start, by omega, by omega, begins, by omega, fun i => located.getElem?_ne_lineFeed⟩
  · rw [ofOffset, ofOffset, List.take_of_length_le beyond, List.take_length]

theorem ofOffset_identifies_blank_line :
    ([195, 169, 10, 10, 98] : List UInt8).length < UInt32.size - 1 ∧
      ofOffset [195, 169, 10, 10, 98] 2 = ⟨2, 1, 3⟩ ∧
      ofOffset [195, 169, 10, 10, 98] 3 = ⟨3, 2, 1⟩ ∧
      (ofOffset [195, 169, 10, 10, 98] 2).Precedes (ofOffset [195, 169, 10, 10, 98] 3) ∧
      lineStarts [195, 169, 10, 10, 98] = [0, 3, 4] ∧
      (∃ start, [0, 3, 4][3 - 1]? = some start ∧ 5 = start + (2 - 1)) ∧
      ofOffset [195, 169, 10, 10, 98] 9 = ⟨5, 3, 2⟩ := by
  have short : ([195, 169, 10, 10, 98] : List UInt8).length < UInt32.size - 1 := by decide
  obtain ⟨ordered, found, beyond⟩ := ofOffset_identifies _ short
  obtain ⟨start, -, -, begins, offset, -⟩ := found 5 (by decide)
  exact ⟨short, rfl, rfl, ordered 2 3 (by decide) (by decide), rfl, ⟨start, begins, offset⟩,
    beyond 9 (by decide)⟩

end Position
end Variability.Text
