import Mathlib.Data.List.Induction
import Variability.Proofs.Markup.Spelling

/-! The names that refer to a character: five words, and the number of the character in
one of two bases. A number that carries a plus sign is taken as well. -/
namespace Variability.Markup

def numberMarks : List (String × Nat) := [("#", 10), ("#x", 16), ("#X", 16)]

inductive Refers (c : Char) : List Char → Prop
  | named {name : String} (known : (name, c) ∈ predefined) : Refers c name.toList
  | numbered {mark : String} {base : Nat} {ds : List Char} (marked : (mark, base) ∈ numberMarks)
      (number : Numeral base ds c.toNat) : Refers c (mark.toList ++ ds)

def RefersWithSign (c : Char) (name : List Char) : Prop :=
  ∃ mark base ds, (mark, base) ∈ numberMarks ∧ Numeral base ds c.toNat ∧
    name = mark.toList ++ '+' :: ds

section Numeral
variable {base : Nat}

private theorem isDigit_of_digit? {c : Char} {v : Nat} (found : digit? base c = some v) :
    IsDigit base v c := by
  have decimal : ∀ k < 10, Char.ofNat (48 + k) = k.digitChar := by decide
  have lower : ∀ k < 6, Char.ofNat (97 + k) = (k + 10).digitChar := by decide
  have upper : ∀ k < 6, Char.ofNat (65 + k) = (k + 10).digitChar.toUpper := by decide
  have offset {low : Nat} (least : low ≤ c.toNat) : c = Char.ofNat (low + (c.toNat - low)) := by
    rw [Nat.add_sub_cancel' least, Char.ofNat_toNat]
  unfold digit? at found
  obtain ⟨small, value⟩ := Option.ite_none_right_eq_some.mp found
  obtain rfl := Option.some.inj value
  refine ⟨small, ?_⟩
  simp only [Bool.and_eq_true, decide_eq_true_eq] at small ⊢
  split
  case isTrue is =>
    have least : 48 ≤ c.toNat := (Char.isDigit_iff_toNat.mp is).1
    have most : c.toNat ≤ 57 := (Char.isDigit_iff_toNat.mp is).2
    left
    exact (offset least).trans (decimal _ (by omega))
  case isFalse notDecimal =>
    rw [if_neg notDecimal] at small
    split
    case isTrue is =>
      have least : 97 ≤ c.toNat := is.1
      have most : c.toNat ≤ 102 := is.2
      left
      exact (offset least).trans (lower _ (by omega))
    case isFalse notLower =>
      rw [if_neg notLower] at small
      split
      case isTrue is =>
        have least : 65 ≤ c.toNat := is.1
        have most : c.toNat ≤ 70 := is.2
        right
        exact (offset least).trans (upper _ (by omega))
      case isFalse notUpper =>
        rw [if_neg notUpper] at small
        exact absurd small (Nat.lt_irrefl base)

private theorem numeral_of_digits? {ds : List Char} {n : Nat} (found : digits? base ds = some n) :
    Numeral base ds n := by
  have nonempty : ds ≠ [] := by
    rintro rfl
    contradiction
  have folded : ds.foldlM (fun n c => (digit? base c).map (base * n + ·)) 0 = .some n := by
    rwa [digits?, if_neg (by simpa using nonempty)] at found
  clear found
  induction ds using List.reverseRecOn generalizing n with
  | nil => contradiction
  | append_singleton ds c ih =>
    rw [List.foldlM_append, Option.bind_eq_bind, Option.bind_eq_some_iff] at folded
    obtain ⟨m, front, last⟩ := folded
    rw [List.foldlM_cons, Option.bind_eq_bind, Option.bind_eq_some_iff] at last
    obtain ⟨_, last, same⟩ := last
    obtain rfl := Option.some.inj same
    obtain ⟨v, value, rfl⟩ := Option.map_eq_some_iff.mp last
    have digit := isDigit_of_digit? value
    cases ds with
    | nil =>
      obtain rfl : 0 = m := Option.some.inj front
      rw [Nat.mul_zero, Nat.zero_add]
      exact .digit digit
    | cons d ds => exact .shift (ih (List.cons_ne_nil d ds) front) digit

private theorem numeral_of_number? {ds : List Char} {n : Nat} (found : number? base ds = some n) :
    Numeral base ds n ∨ ∃ tail, ds = '+' :: tail ∧ Numeral base tail n := by
  unfold number? at found
  split at found
  case h_1 tail => exact .inr ⟨tail, rfl, numeral_of_digits? found⟩
  case h_2 => exact .inl (numeral_of_digits? found)

end Numeral

private theorem toNat_of_character? {n : Nat} {c : Char} (found : character? n = some c) :
    n = c.toNat := by
  unfold character? at found
  split at found
  case isTrue valid =>
    have here : (Char.ofNatAux n valid).toNat = n := rfl
    rw [← here, Char.ofNat_toNat, Option.some.injEq] at found
    rw [← found, here]
  case isFalse => contradiction

private theorem refers_of_marked {mark : String} {base : Nat} (marked : (mark, base) ∈ numberMarks)
    {ds : List Char} {c : Char} (found : (number? base ds).bind character? = some c) :
    Refers c (mark.toList ++ ds) ∨ RefersWithSign c (mark.toList ++ ds) := by
  obtain ⟨n, number, char⟩ := Option.bind_eq_some_iff.mp found
  obtain rfl := toNat_of_character? char
  rcases numeral_of_number? number with plain | ⟨tail, rfl, signed⟩
  · exact .inl (.numbered marked plain)
  · exact .inr ⟨mark, base, tail, marked, signed, rfl⟩

theorem refers_of_reference? {name : List Char} {c : Char} (found : reference? name = some c) :
    Refers c name ∨ RefersWithSign c name := by
  have word (name : String) (known : (name, c) ∈ predefined) : Refers c name.toList := .named known
  unfold reference? at found
  split at found
  case h_6 => exact refers_of_marked (show ("#x", 16) ∈ numberMarks by decide) found
  case h_7 => exact refers_of_marked (show ("#X", 16) ∈ numberMarks by decide) found
  case h_8 => exact refers_of_marked (show ("#", 10) ∈ numberMarks by decide) found
  case h_9 => contradiction
  all_goals
    obtain rfl := Option.some.inj found
    left
  · exact word "lt" (by decide)
  · exact word "gt" (by decide)
  · exact word "amp" (by decide)
  · exact word "quot" (by decide)
  · exact word "apos" (by decide)

private theorem marked_cases {mark : String} {base : Nat} (marked : (mark, base) ∈ numberMarks) :
    (mark = "#" ∧ base = 10) ∨ (mark = "#x" ∧ base = 16) ∨ (mark = "#X" ∧ base = 16) := by
  simpa [numberMarks] using marked

theorem reference?_of_refers {name : List Char} {c : Char} (refers : Refers c name) :
    reference? name = some c := by
  cases refers with
  | named known =>
    simp only [predefined, List.mem_cons, List.not_mem_nil, or_false, Prod.mk.injEq] at known
    rcases known with ⟨rfl, rfl⟩ | ⟨rfl, rfl⟩ | ⟨rfl, rfl⟩ | ⟨rfl, rfl⟩ | ⟨rfl, rfl⟩ <;> rfl
  | numbered marked number =>
    rcases marked_cases marked with ⟨rfl, rfl⟩ | ⟨rfl, rfl⟩ | ⟨rfl, rfl⟩
    · exact reference?_decimal number
    · exact reference?_hexadecimal (.inl rfl) number
    · exact reference?_hexadecimal (.inr rfl) number

theorem reference?_of_refersWithSign {name : List Char} {c : Char}
    (refers : RefersWithSign c name) : reference? name = some c := by
  obtain ⟨mark, base, ds, marked, number, rfl⟩ := refers
  have read : reference? (mark.toList ++ '+' :: ds) = (digits? base ds).bind character? := by
    rcases marked_cases marked with ⟨rfl, rfl⟩ | ⟨rfl, rfl⟩ | ⟨rfl, rfl⟩ <;> rfl
  have bases : base = 10 ∨ base = 16 := by
    rcases marked_cases marked with ⟨_, is⟩ | ⟨_, is⟩ | ⟨_, is⟩ <;> simp [is]
  rw [read, number.digits? bases]
  exact character?_toNat c

private theorem IsDigit.isAlphanum {base v : Nat} {c : Char} (digit : IsDigit base v c)
    (small : base ≤ 16) : c.isAlphanum = true := by
  have all : ∀ v < 16, v.digitChar.isAlphanum = true ∧ v.digitChar.toUpper.isAlphanum = true := by
    decide
  obtain ⟨bound, rfl | rfl⟩ := digit
  · exact (all v (Nat.lt_of_lt_of_le bound small)).1
  · exact (all v (Nat.lt_of_lt_of_le bound small)).2

private theorem Numeral.isAlphanum {base : Nat} {ds : List Char} {n : Nat}
    (number : Numeral base ds n)
    (small : base ≤ 16) {x : Char} (found : x ∈ ds) : x.isAlphanum = true := by
  induction number with
  | digit last =>
    obtain rfl := List.mem_singleton.mp found
    exact last.isAlphanum small
  | shift front last ih =>
    rcases List.mem_append.mp found with inFront | isLast
    · exact ih inFront
    · obtain rfl := List.mem_singleton.mp isLast
      exact last.isAlphanum small

theorem Refers.mem {name : List Char} {c x : Char} (refers : Refers c name) (found : x ∈ name) :
    x = '#' ∨ x.isAlphanum = true := by
  have words : (predefined.all fun entry => entry.1.toList.all Char.isAlphanum) = true := rfl
  have marks : (numberMarks.all fun entry => entry.2 ≤ 16 &&
      entry.1.toList.all fun x => x == '#' || x.isAlphanum) = true := rfl
  cases refers with
  | named known => exact .inr (List.all_eq_true.mp (List.all_eq_true.mp words _ known) x found)
  | numbered marked number =>
    have mark := List.all_eq_true.mp marks _ marked
    rw [Bool.and_eq_true, decide_eq_true_eq, List.all_eq_true] at mark
    rcases List.mem_append.mp found with inMark | inNumber
    · simpa using mark.2 x inMark
    · exact .inr (number.isAlphanum mark.1 inNumber)

theorem not_mem_of_reference? {name : List Char} {c x : Char} (found : reference? name = some c)
    (other : x ≠ '+' ∧ x ≠ '#' ∧ x.isAlphanum = false) : x ∉ name := by
  have notIn {name : List Char} (refers : Refers c name) : x ∉ name := by
    intro member
    rcases refers.mem member with is | is
    · exact other.2.1 is
    · rw [is] at other
      exact Bool.noConfusion other.2.2
  rcases refers_of_reference? found with refers | ⟨mark, base, ds, marked, number, rfl⟩
  · exact notIn refers
  · -- without the sign it would be a name as well
    have without := notIn (.numbered marked number)
    rw [List.mem_append, List.mem_cons]
    rw [List.mem_append] at without
    tauto

/-- A name stands for a character exactly when it refers to it, as a word or by its number,
or when it would without a plus sign ahead of the digits. -/
theorem reference?_eq_some_iff (name : List Char) (c : Char) :
    reference? name = some c ↔ Refers c name ∨ RefersWithSign c name := by
  constructor
  · exact refers_of_reference?
  · rintro (refers | refers)
    · exact reference?_of_refers refers
    · exact reference?_of_refersWithSign refers

theorem reference?_with_sign :
    reference? "#+65".toList = some 'A' ∧ ¬ Refers 'A' "#+65".toList := by
  refine ⟨rfl, fun refers => ?_⟩
  have plus : '+' ∈ "#+65".toList := by decide
  exact absurd (refers.mem plus) (by decide)

end Variability.Markup
