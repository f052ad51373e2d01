import Variability.Proofs.Markup.Grammar

/-! A text that is spelled out decodes to itself, and its spelling holds no
delimiter. -/
namespace Variability.Markup
open Text

section Numeral
variable {base : Nat} (bases : base = 10 ∨ base = 16)
include bases

private theorem digit?_of_isDigit {v : Nat} {c : Char} (h : IsDigit base v c) :
    digit? base c = some v := by
  obtain ⟨small, shape⟩ := h
  have decimal : ∀ v < 10, digit? 10 v.digitChar = some v ∧ digit? 10 v.digitChar.toUpper = some v := by
    decide
  have hexadecimal :
      ∀ v < 16, digit? 16 v.digitChar = some v ∧ digit? 16 v.digitChar.toUpper = some v := by
    decide
  rcases bases with rfl | rfl <;> rcases shape with rfl | rfl
  · exact (decimal v small).1
  · exact (decimal v small).2
  · exact (hexadecimal v small).1
  · exact (hexadecimal v small).2

private theorem Numeral.isSome_digit? {ds : List Char} {n : Nat} (number : Numeral base ds n) :
    ∀ c ∈ ds, (digit? base c).isSome = true := by
  induction number with
  | digit last => simp [digit?_of_isDigit bases last]
  | shift front last ih =>
    intro c found
    rcases List.mem_append.mp found with inFront | isLast
    · exact ih c inFront
    · rw [List.mem_singleton.mp isLast, digit?_of_isDigit bases last]
      rfl

theorem Numeral.not_mem {ds : List Char} {n : Nat} (number : Numeral base ds n) {c : Char}
    (other : digit? base c = none) : c ∉ ds := by
  intro found
  have := number.isSome_digit? bases c found
  simp [other] at this

theorem Numeral.digits? {ds : List Char} {n : Nat} (number : Numeral base ds n) :
    digits? base ds = some n := by
  have folded : ds.foldlM (fun n c => (digit? base c).map (base * n + ·)) 0 = some n := by
    induction number with
    | digit last => simp [digit?_of_isDigit bases last]
    | shift front last ih => simp [List.foldlM_append, ih, digit?_of_isDigit bases last]
  have nonempty : ds.isEmpty = false := by
    cases number <;> simp
  rw [Markup.digits?, nonempty]
  exact folded

theorem Numeral.number? {ds : List Char} {n : Nat} (number : Numeral base ds n) :
    number? base ds = some n := by
  have plus : '+' ∉ ds := by
    apply number.not_mem bases
    rcases bases with rfl | rfl <;> decide
  unfold Markup.number?
  split
  · simp at plus
  · exact number.digits? bases

end Numeral

@[simp] theorem character?_toNat (c : Char) : character? c.toNat = some c := by
  have valid : c.toNat.isValidChar := c.valid
  rw [character?, if_pos valid, Char.ofNat_toNat]

theorem reference?_decimal {ds : List Char} {c : Char} (number : Numeral 10 ds c.toNat) :
    reference? ('#' :: ds) = some c := by
  have lower : 'x' ∉ ds := number.not_mem (.inl rfl) (by decide)
  have upper : 'X' ∉ ds := number.not_mem (.inl rfl) (by decide)
  have decimal : reference? ('#' :: ds) = (number? 10 ds).bind character? := by
    unfold reference?
    split <;> simp_all
  rw [decimal, number.number? (.inl rfl)]
  exact character?_toNat c

theorem reference?_hexadecimal {x : Char} {ds : List Char} {c : Char} (marked : x = 'x' ∨ x = 'X')
    (number : Numeral 16 ds c.toNat) : reference? ('#' :: x :: ds) = some c := by
  have hexadecimal : reference? ('#' :: x :: ds) = (number? 16 ds).bind character? := by
    rcases marked with rfl | rfl <;> rfl
  rw [hexadecimal, number.number? (.inr rfl)]
  exact character?_toNat c

def delimiters : List Char := ['<', '"', '\'']

section Delimiter
variable {stop : Char} (delimiter : stop ∈ delimiters)
include delimiter

private theorem delimiter_cases :
    digit? 10 stop = none ∧ digit? 16 stop = none ∧ stop ∉ ['&', '#', 'x', 'X', ';'] := by
  simp only [delimiters, List.mem_cons, List.not_mem_nil, or_false] at delimiter
  rcases delimiter with rfl | rfl | rfl <;> decide

private theorem predefined_cases {name : String} {c : Char} (known : (name, c) ∈ predefined) :
    reference? name.toList = some c ∧ ';' ∉ name.toList ∧ stop ∉ name.toList := by
  simp only [predefined, List.mem_cons, List.not_mem_nil, or_false, Prod.mk.injEq] at known
  simp only [delimiters, List.mem_cons, List.not_mem_nil, or_false] at delimiter
  rcases known with ⟨rfl, rfl⟩ | ⟨rfl, rfl⟩ | ⟨rfl, rfl⟩ | ⟨rfl, rfl⟩ | ⟨rfl, rfl⟩ <;>
    rcases delimiter with rfl | rfl | rfl <;> decide

theorem Spells.cases {c : Char} {written : List Char} (spells : Spells stop c written) :
    (written = [c] ∧ c ≠ '&' ∧ c ≠ stop) ∨
      ∃ body, written = '&' :: body ++ [';'] ∧ reference? body = some c ∧ ';' ∉ body ∧
        stop ∉ body := by
  obtain ⟨notDecimal, notHexadecimal, notMark⟩ := delimiter_cases delimiter
  cases spells with
  | plain free => exact .inl ⟨rfl, free⟩
  | named known =>
    exact .inr ⟨_, rfl, predefined_cases delimiter known⟩
  | decimal number =>
    have closed := number.not_mem (.inl rfl) (show digit? 10 ';' = none by decide)
    have free := number.not_mem (.inl rfl) notDecimal
    refine .inr ⟨'#' :: _, rfl, reference?_decimal number, by simp [closed], ?_⟩
    simp_all
  | hexadecimal marked number =>
    have closed := number.not_mem (.inr rfl) (show digit? 16 ';' = none by decide)
    have free := number.not_mem (.inr rfl) notHexadecimal
    refine .inr ⟨'#' :: _ :: _, rfl, reference?_hexadecimal marked number, ?_, ?_⟩ <;>
      rcases marked with rfl | rfl <;> simp_all

private theorem Spells.stop_not_mem {c : Char} {written : List Char}
    (spells : Spells stop c written) : stop ∉ written := by
  obtain ⟨_, _, notMark⟩ := delimiter_cases delimiter
  rcases spells.cases delimiter with ⟨rfl, _, other⟩ | ⟨body, rfl, _, _, free⟩
  · simpa using other.symm
  · simp_all

end Delimiter

namespace Decoder

theorem step_plain {c : Char} (plain : c ≠ '&') (offset : Nat) (out : String) :
    step ⟨offset, out, none⟩ c = .ok ⟨offset + c.utf8Size, out.push c, none⟩ := by
  simp [step, plain]

theorem step_name {c : Char} (inside : c ≠ ';') (offset start : Nat) (out : String)
    (name : List Char) :
    step ⟨offset, out, some (start, name)⟩ c =
      .ok ⟨offset + c.utf8Size, out, some (start, c :: name)⟩ := by
  simp [step, inside]

theorem step_close {c : Char} {name : List Char} (meaning : reference? name.reverse = some c)
    (offset start : Nat) (out : String) :
    step ⟨offset, out, some (start, name)⟩ ';' =
      .ok ⟨offset + ';'.utf8Size, out.push c, none⟩ := by
  simp [step, meaning]

theorem foldlM_name {body : List Char} (closed : ';' ∉ body) (offset start : Nat) (out : String)
    (name : List Char) :
    ∃ offset', body.foldlM step ⟨offset, out, some (start, name)⟩ =
      .ok ⟨offset', out, some (start, body.reverse ++ name)⟩ := by
  induction body generalizing offset name with
  | nil => exact ⟨offset, rfl⟩
  | cons c body ih =>
    rw [List.mem_cons, not_or] at closed
    obtain ⟨offset', rest⟩ := ih closed.2 (offset + c.utf8Size) (c :: name)
    refine ⟨offset', ?_⟩
    rw [List.foldlM_cons, step_name (Ne.symm closed.1), List.reverse_cons, List.append_assoc]
    exact rest

theorem foldlM_reference {body : List Char} {c : Char} (meaning : reference? body = some c)
    (closed : ';' ∉ body) (offset : Nat) (out : String) :
    ∃ offset', ('&' :: body ++ [';']).foldlM step ⟨offset, out, none⟩ =
      .ok ⟨offset', out.push c, none⟩ := by
  obtain ⟨offset', named⟩ := foldlM_name closed (offset + '&'.utf8Size) offset out []
  refine ⟨offset' + ';'.utf8Size, ?_⟩
  rw [List.append_nil] at named
  have opened : step ⟨offset, out, none⟩ '&' =
      .ok ⟨offset + '&'.utf8Size, out, some (offset, [])⟩ := rfl
  rw [List.cons_append, List.foldlM_cons, opened]
  change (body ++ [';']).foldlM step _ = _
  rw [List.foldlM_append, named]
  change [';'].foldlM step _ = _
  rw [List.foldlM_cons, step_close (by rwa [List.reverse_reverse])]
  rfl

theorem foldlM_spells {stop c : Char} {written : List Char} (delimiter : stop ∈ delimiters)
    (spells : Spells stop c written) (offset : Nat) (out : String) :
    ∃ offset', written.foldlM step ⟨offset, out, none⟩ = .ok ⟨offset', out.push c, none⟩ := by
  rcases spells.cases delimiter with ⟨rfl, plain, _⟩ | ⟨body, rfl, meaning, closed, _⟩
  · refine ⟨offset + c.utf8Size, ?_⟩
    rw [List.foldlM_cons, step_plain plain]
    rfl
  · exact foldlM_reference meaning closed offset out

theorem foldlM_run {stop : Char} (delimiter : stop ∈ delimiters) (run : List (Spelled stop))
    (offset : Nat) (out : String) :
    ∃ offset', (run.flatMap Spelled.written).foldlM step ⟨offset, out, none⟩ =
      .ok ⟨offset', out ++ String.ofList (run.map Spelled.char), none⟩ := by
  induction run generalizing offset out with
  | nil => exact ⟨offset, by simp; rfl⟩
  | cons first run ih =>
    obtain ⟨offset₁, decoded⟩ := foldlM_spells delimiter first.spells offset out
    obtain ⟨offset₂, rest⟩ := ih offset₁ (out.push first.char)
    refine ⟨offset₂, ?_⟩
    have joined : out.push first.char ++ String.ofList (run.map Spelled.char) =
        out ++ String.ofList ((first :: run).map Spelled.char) := by
      apply String.toList_inj.mp
      simp
    rw [List.flatMap_cons, List.foldlM_append, decoded, ← joined]
    exact rest

end Decoder

namespace Run
variable {stop : Char} (delimiter : stop ∈ delimiters)
include delimiter

@[simp] theorem decode_raw (run : Run stop .kept) : decode run.raw = .ok run.text := by
  obtain ⟨offset, decoded⟩ := Decoder.foldlM_run delimiter run 0 ""
  rw [decode, raw, String.toList_ofList, decoded, String.empty_append]
  rfl

theorem stop_not_mem {mode : Mode} (run : Run stop mode) : stop ∉ run.raw.toList := by
  cases mode with
  | kept =>
    intro found
    rw [raw, String.toList_ofList] at found
    obtain ⟨spelled, _, written⟩ := List.mem_flatMap.mp found
    exact spelled.spells.stop_not_mem delimiter written
  | dropped => exact run.property

end Run
end Variability.Markup
