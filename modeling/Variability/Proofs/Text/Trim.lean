import Mathlib.Data.List.TakeWhile
import Variability.Text.Blank

/-! Trimmed texts. Trimming takes the blanks off both ends, so a trimmed text neither
begins nor ends with one. Blanks that are added at an end are taken off again, and
blanks between two texts that are not blank are kept. -/
namespace Variability.Text

structure Trimmed (s : String) : Prop where
  first : ∀ c, s.toList.head? = some c → isBlank c = false
  last : ∀ c, s.toList.getLast? = some c → isBlank c = false

private theorem isBlank_of_head?_dropWhile {cs : List Char} {c : Char}
    (first : (cs.dropWhile isBlank).head? = some c) : isBlank c = false := by
  have stopped := List.head?_dropWhile_not isBlank cs
  rw [first] at stopped
  simpa using stopped

private theorem trimEndChars_prefix (cs : List Char) : trimEndChars cs <+: cs := by
  rw [trimEndChars, ← List.reverse_suffix, List.reverse_reverse]
  exact List.dropWhile_suffix isBlank

theorem trimmed_trim (s : String) : Trimmed (trim s) where
  first c begins := by
    rw [trim, String.toList_ofList, trimChars] at begins
    obtain ⟨more, whole⟩ := trimEndChars_prefix (s.toList.dropWhile isBlank)
    have ahead : (s.toList.dropWhile isBlank).head? = some c := by
      rw [← whole, List.head?_append, begins, Option.some_or]
    exact isBlank_of_head?_dropWhile ahead
  last c ends := by
    rw [trim, String.toList_ofList, trimChars, trimEndChars, List.getLast?_reverse] at ends
    exact isBlank_of_head?_dropWhile ends

private theorem dropWhile_isBlank_eq_self {cs : List Char}
    (first : ∀ c, cs.head? = some c → isBlank c = false) : cs.dropWhile isBlank = cs := by
  cases cs with
  | nil => rfl
  | cons c cs => rw [List.dropWhile_cons, first c rfl, if_neg Bool.false_ne_true]

theorem Trimmed.trim_eq {s : String} (trimmed : Trimmed s) : trim s = s := by
  have ends : s.toList.reverse.dropWhile isBlank = s.toList.reverse :=
    dropWhile_isBlank_eq_self fun c last => trimmed.last c (by rwa [List.head?_reverse] at last)
  rw [trim, trimChars, dropWhile_isBlank_eq_self trimmed.first, trimEndChars, ends,
    List.reverse_reverse, String.ofList_toList]

@[simp] theorem trim_trim (s : String) : trim (trim s) = trim s := (trimmed_trim s).trim_eq

section Append
variable {cs ds : List Char}

@[simp]
theorem dropWhile_isBlank_eq_nil_iff : cs.dropWhile isBlank = [] ↔ cs.all isBlank = true := by
  rw [List.dropWhile_eq_nil_iff, List.all_eq_true]

private theorem dropWhile_append_of_blank (blank : cs.all isBlank = true) :
    (cs ++ ds).dropWhile isBlank = ds.dropWhile isBlank := by
  rw [List.dropWhile_append, dropWhile_isBlank_eq_nil_iff.mpr blank]
  rfl

private theorem dropWhile_append_of_solid (solid : cs.all isBlank = false) :
    (cs ++ ds).dropWhile isBlank = cs.dropWhile isBlank ++ ds := by
  have rest : (cs.dropWhile isBlank).isEmpty = false := by
    rw [List.isEmpty_eq_false_iff, Ne, dropWhile_isBlank_eq_nil_iff, solid]
    exact Bool.false_ne_true
  rw [List.dropWhile_append, rest, if_neg Bool.false_ne_true]

private theorem trimEndChars_append_of_blank (blank : ds.all isBlank = true) :
    trimEndChars (cs ++ ds) = trimEndChars cs := by
  rw [trimEndChars, List.reverse_append, dropWhile_append_of_blank (by rwa [List.all_reverse])]
  rfl

private theorem trimEndChars_append_of_solid (solid : ds.all isBlank = false) :
    trimEndChars (cs ++ ds) = cs ++ trimEndChars ds := by
  rw [trimEndChars, List.reverse_append, dropWhile_append_of_solid (by rwa [List.all_reverse]),
    List.reverse_append, List.reverse_reverse]
  rfl

end Append

@[simp] theorem isBlankText_append (s t : String) :
    isBlankText (s ++ t) = (isBlankText s && isBlankText t) := by
  rw [isBlankText, String.toList_append, List.all_append]
  rfl

theorem trim_append_of_blank_left {s : String} (blank : isBlankText s = true) (t : String) :
    trim (s ++ t) = trim t := by
  rw [trim, String.toList_append, trimChars, dropWhile_append_of_blank blank]
  rfl

theorem trim_append_of_blank_right (s : String) {t : String} (blank : isBlankText t = true) :
    trim (s ++ t) = trim s := by
  rw [trim, String.toList_append, trimChars, trim, trimChars]
  cases all : s.toList.all isBlank with
  | true =>
    rw [dropWhile_append_of_blank all, dropWhile_isBlank_eq_nil_iff.mpr all,
      dropWhile_isBlank_eq_nil_iff.mpr blank]
  | false => rw [dropWhile_append_of_solid all, trimEndChars_append_of_blank blank]

/-- What stands between two texts that are not blank stays as it is. -/
theorem toList_trim_append_of_solid {s t : String} (solid : isBlankText s = false)
    (solid' : isBlankText t = false) (between : String) :
    (trim (s ++ between ++ t)).toList =
      s.toList.dropWhile isBlank ++ between.toList ++ trimEndChars t.toList := by
  rw [trim, String.toList_ofList, trimChars, String.append_assoc, String.toList_append,
    dropWhile_append_of_solid solid, String.toList_append, ← List.append_assoc,
    trimEndChars_append_of_solid solid']

theorem trim_append_ne_of_solid {s t between : String} (solid : isBlankText s = false)
    (solid' : isBlankText t = false) (between_ne : between ≠ "") :
    trim (s ++ between ++ t) ≠ trim (s ++ t) := by
  intro same
  have longer := toList_trim_append_of_solid solid solid' between
  have shorter := toList_trim_append_of_solid solid solid' ""
  rw [String.append_empty, ← same, longer, String.toList_empty] at shorter
  have empty := List.append_cancel_left (List.append_cancel_right shorter)
  exact between_ne (String.toList_eq_nil_iff.mp empty)

theorem trim_append_blank_iff {between : String} (blank : isBlankText between = true)
    (s t : String) :
    trim (s ++ t) = trim (s ++ between ++ t) ↔
      between = "" ∨ isBlankText s = true ∨ isBlankText t = true := by
  constructor
  · intro same
    by_contra kept
    simp only [not_or, Bool.not_eq_true] at kept
    exact trim_append_ne_of_solid kept.2.1 kept.2.2 kept.1 same.symm
  · rintro (rfl | first | last)
    · rw [String.append_empty]
    · rw [String.append_assoc, trim_append_of_blank_left first, trim_append_of_blank_left first,
        trim_append_of_blank_left blank]
    · rw [trim_append_of_blank_right _ last, trim_append_of_blank_right _ last,
        trim_append_of_blank_right _ blank]

end Variability.Text
