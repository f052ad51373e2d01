import Mathlib.Data.List.Forall2
import Variability.Proofs.Markup.Decoding
import Variability.Proofs.Markup.References

/-! Texts as literal parts and references in turn. A text decodes when it divides like
this, and then in one way only; otherwise the first `&` is told that begins no reference. -/
namespace Variability.Markup

structure Passage where
  literal : List Char
  name : List Char
  char : Char
  plain : '&' ∉ literal
  closed : ';' ∉ name
  known : reference? name = some char

namespace Passage

def written (p : Passage) : List Char := p.literal ++ '&' :: (p.name ++ [';'])

def read (p : Passage) : List Char := p.literal ++ [p.char]

end Passage

structure Division where
  passages : List Passage
  last : List Char
  plain : '&' ∉ last

namespace Division

def raw (d : Division) : String := String.ofList (d.passages.flatMap Passage.written ++ d.last)

def text (d : Division) : String := String.ofList (d.passages.flatMap Passage.read ++ d.last)

end Division

/-- An `&` with this behind it begins no reference: none that ends, or none that stands for
a character. -/
def Faulty (after : List Char) : Prop :=
  ';' ∉ after ∨ reference? (after.takeWhile (· != ';')) = none

def opened (after : List Char) : List Char :=
  '&' :: after.takeWhile (· != ';') ++ (if ';' ∈ after then [';'] else [])

section Lists
variable {x : Char} {l r l' r' : List Char}

private theorem takeWhile_append_of_free (free : x ∉ l) (r : List Char) :
    (l ++ r).takeWhile (· != x) = l ++ r.takeWhile (· != x) := by
  apply List.takeWhile_append_of_pos
  intro c found
  rw [bne_iff_ne]
  rintro rfl
  exact free found

private theorem takeWhile_append_cons (free : x ∉ l) (r : List Char) :
    (l ++ x :: r).takeWhile (· != x) = l := by
  rw [takeWhile_append_of_free free, List.takeWhile_cons_of_neg (by simp), List.append_nil]

private theorem append_cons_inj_of_first (free : x ∉ l) (free' : x ∉ l')
    (same : l ++ x :: r = l' ++ x :: r') : l = l' ∧ r = r' := by
  have front : l = l' := by
    rw [← takeWhile_append_cons free r, same, takeWhile_append_cons free']
  subst front
  exact ⟨rfl, List.tail_eq_of_cons_eq (List.append_cancel_left same)⟩

end Lists

theorem decode_append_of_ok {left right x y : String} (first : decode left = .ok x)
    (second : decode right = .ok y) : decode (left ++ right) = .ok (x ++ y) := by
  rw [decode_append first, second]
  rfl

private theorem empty_push (c : Char) : "".push c = String.ofList [c] :=
  String.toList_inj.mp (by simp)

private theorem decode_char {c : Char} (plain : c ≠ '&') :
    decode (String.ofList [c]) = .ok (String.ofList [c]) := by
  rw [decode, String.toList_ofList, List.foldlM_cons, Decoder.step_plain plain, empty_push]
  rfl

private theorem decode_plain {cs : List Char} (plain : '&' ∉ cs) :
    decode (String.ofList cs) = .ok (String.ofList cs) := by
  induction cs with
  | nil => rfl
  | cons c cs ih =>
    rw [List.mem_cons, not_or] at plain
    rw [← List.singleton_append, String.ofList_append]
    exact decode_append_of_ok (decode_char (Ne.symm plain.1)) (ih plain.2)

theorem decode_reference {name : List Char} {c : Char} (known : reference? name = some c)
    (closed : ';' ∉ name) :
    decode (String.ofList ('&' :: (name ++ [';']))) = .ok (String.ofList [c]) := by
  obtain ⟨offset, run⟩ := Decoder.foldlM_reference known closed 0 ""
  rw [empty_push, List.cons_append, ← String.toList_ofList (l := '&' :: (name ++ [';']))] at run
  exact decode_of_run run

theorem decode_faulty {after : List Char} (faulty : Faulty after) :
    decode (String.ofList ('&' :: after)) = .error ⟨0, String.ofList (opened after)⟩ := by
  rw [decode, String.toList_ofList, List.foldlM_cons]
  change (after.foldlM Decoder.step ⟨1, "", some (0, [])⟩ >>= Decoder.finish) = _
  by_cases ends : ';' ∈ after
  · obtain ⟨name, rest, rfl, closed⟩ := List.eq_append_cons_of_mem ends
    have unknown := faulty.resolve_left (not_not_intro ends)
    rw [takeWhile_append_cons closed] at unknown
    obtain ⟨offset, run⟩ := Decoder.foldlM_name closed 1 0 "" []
    rw [opened, if_pos ends, takeWhile_append_cons closed, List.foldlM_append, run]
    change ((';' :: rest).foldlM Decoder.step ⟨offset, "", some (0, name.reverse ++ [])⟩ >>=
      Decoder.finish) = _
    have refused : Decoder.step ⟨offset, "", some (0, name.reverse ++ [])⟩ ';' =
        .error ⟨0, String.ofList ('&' :: name ++ [';'])⟩ := by
      simp [Decoder.step, unknown]
    rw [List.foldlM_cons, refused]
    rfl
  · obtain ⟨offset, run⟩ := Decoder.foldlM_name ends 1 0 "" []
    have whole : after.takeWhile (· != ';') = after := by
      have all := takeWhile_append_of_free ends []
      rwa [List.append_nil, List.takeWhile_nil, List.append_nil] at all
    rw [opened, if_neg ends, whole, run]
    change Decoder.finish ⟨offset, "", some (0, after.reverse ++ [])⟩ = _
    simp [Decoder.finish]

private theorem amp_append (after : String) : "&" ++ after = String.ofList
    ('&' :: after.toList) := by
  apply String.toList_inj.mp
  simp

@[simp] theorem Passage.decode_written (p : Passage) :
    decode (String.ofList p.written) = .ok (String.ofList p.read) := by
  rw [written, read, String.ofList_append, String.ofList_append]
  exact decode_append_of_ok (decode_plain p.plain) (decode_reference p.known p.closed)

namespace Division

def cons (p : Passage) (d : Division) : Division := ⟨p :: d.passages, d.last, d.plain⟩

@[simp] theorem raw_cons (p : Passage) (d : Division) :
    (d.cons p).raw = String.ofList p.written ++ d.raw := by
  rw [raw, raw, ← String.ofList_append, ← List.append_assoc]
  rfl

@[simp] theorem text_cons (p : Passage) (d : Division) :
    (d.cons p).text = String.ofList p.read ++ d.text := by
  rw [text, text, ← String.ofList_append, ← List.append_assoc]
  rfl

@[simp] theorem decode_raw (d : Division) : decode d.raw = .ok d.text := by
  obtain ⟨passages, last, plain⟩ := d
  induction passages with
  | nil => exact decode_plain plain
  | cons p passages ih =>
    have split := decode_append_of_ok p.decode_written ih
    rw [← raw_cons, ← text_cons] at split
    exact split

theorem decode_raw_append (d : Division) {after : String} (faulty : Faulty after.toList) :
    decode (d.raw ++ "&" ++ after) =
      .error ⟨d.raw.utf8ByteSize, String.ofList (opened after.toList)⟩ := by
  rw [String.append_assoc, decode_append d.decode_raw, amp_append, decode_faulty faulty]
  rfl

private theorem passages_inj {ps qs : List Passage} {last last' : List Char} (plain : '&' ∉ last)
    (plain' : '&' ∉ last')
    (same : ps.flatMap Passage.written ++ last = qs.flatMap Passage.written ++ last') :
    ps = qs ∧ last = last' := by
  have amp (p : Passage) (rest : List Char) : '&' ∈ p.written ++ rest := by simp [Passage.written]
  induction ps generalizing qs with
  | nil =>
    cases qs with
    | nil => exact ⟨rfl, same⟩
    | cons q qs =>
      rw [List.flatMap_nil, List.nil_append, List.flatMap_cons, List.append_assoc] at same
      exact absurd (same ▸ amp q _) plain
  | cons p ps ih =>
    cases qs with
    | nil =>
      rw [List.flatMap_nil, List.nil_append, List.flatMap_cons, List.append_assoc] at same
      exact absurd (same ▸ amp p _) plain'
    | cons q qs =>
      simp only [List.flatMap_cons, Passage.written, List.append_assoc, List.cons_append,
        List.nil_append] at same
      obtain ⟨literal, same⟩ := append_cons_inj_of_first p.plain q.plain same
      obtain ⟨name, same⟩ := append_cons_inj_of_first p.closed q.closed same
      obtain ⟨rfl, rfl⟩ := ih same
      have char : p.char = q.char := by
        rw [← Option.some.injEq, ← p.known, name, q.known]
      refine ⟨?_, rfl⟩
      cases p
      cases q
      simp_all

theorem raw_injective : Function.Injective raw := by
  rintro ⟨ps, last, plain⟩ ⟨qs, last', plain'⟩ same
  obtain ⟨rfl, rfl⟩ := passages_inj plain plain' (String.ofList_inj.mp same)
  rfl

private theorem exists_division_ofList (cs : List Char) :
    (∃ d : Division, d.raw = String.ofList cs) ∨
      ∃ (d : Division) (after : List Char),
        String.ofList cs = d.raw ++ String.ofList ('&' :: after) ∧ Faulty after := by
  by_cases amp : '&' ∈ cs
  case neg => exact .inl ⟨⟨[], cs, amp⟩, rfl⟩
  obtain ⟨literal, after, rfl, plain⟩ := List.eq_append_cons_of_mem amp
  by_cases faulty : Faulty after
  · exact .inr ⟨⟨[], literal, plain⟩, after, String.ofList_append, faulty⟩
  · rw [Faulty, not_or, not_not] at faulty
    obtain ⟨name, rest, rfl, closed⟩ := List.eq_append_cons_of_mem faulty.1
    rw [takeWhile_append_cons closed, ← ne_eq, Option.ne_none_iff_exists'] at faulty
    obtain ⟨_, char, known⟩ := faulty
    let p : Passage := ⟨literal, name, char, plain, closed, known⟩
    have split : String.ofList (literal ++ '&' :: (name ++ ';' :: rest)) =
        String.ofList p.written ++ String.ofList rest := by
      rw [← String.ofList_append]
      simp [p, Passage.written]
    rw [split]
    rcases exists_division_ofList rest with ⟨d, divided⟩ | ⟨d, after, divided, faulty⟩
    · exact .inl ⟨d.cons p, by rw [raw_cons, divided]⟩
    · exact .inr ⟨d.cons p, after, by rw [raw_cons, divided, String.append_assoc], faulty⟩
termination_by cs.length
decreasing_by
  subst_vars
  simp only [List.length_append, List.length_cons]
  omega

/-- A text divides, or it divides up to an `&` that begins no reference. -/
theorem exists_division (raw : String) :
    (∃ d : Division, d.raw = raw) ∨
      ∃ (d : Division) (after : String), raw = d.raw ++ "&" ++ after ∧ Faulty after.toList := by
  rcases exists_division_ofList raw.toList with ⟨d, divided⟩ | ⟨d, after, divided, faulty⟩
  · rw [String.ofList_toList] at divided
    exact .inl ⟨d, divided⟩
  · refine .inr ⟨d, String.ofList after, ?_, by rwa [String.toList_ofList]⟩
    rw [String.append_assoc, amp_append, String.toList_ofList, ← divided, String.ofList_toList]

end Division

theorem Faulty.append {after : List Char} (faulty : Faulty after) (more : List Char) :
    Faulty (after ++ '&' :: more) := by
  right
  by_cases ends : ';' ∈ after
  · obtain ⟨name, rest, rfl, closed⟩ := List.eq_append_cons_of_mem ends
    have unknown := faulty.resolve_left (not_not_intro ends)
    rw [takeWhile_append_cons closed] at unknown
    rwa [List.append_assoc, List.cons_append, takeWhile_append_cons closed]
  · rw [takeWhile_append_of_free ends, List.takeWhile_cons_of_pos (by decide),
      Option.eq_none_iff_forall_ne_some]
    intro c known
    exact not_mem_of_reference? known (by decide) (List.mem_append_right _ List.mem_cons_self)

theorem decode_eq_ok_iff (raw out : String) :
    decode raw = .ok out ↔ ∃ d : Division, d.raw = raw ∧ d.text = out := by
  constructor
  · intro decoded
    rcases Division.exists_division raw with ⟨d, rfl⟩ | ⟨d, after, rfl, faulty⟩
    · exact ⟨d, rfl, Except.ok.inj (d.decode_raw.symm.trans decoded)⟩
    · rw [d.decode_raw_append faulty] at decoded
      contradiction
  · rintro ⟨d, rfl, rfl⟩
    exact d.decode_raw

theorem offset_le_of_faulty {before after : String} {bad : BadReference}
    (faulty : Faulty after.toList) (fails : decode (before ++ "&" ++ after) = .error bad) :
    bad.offset ≤ before.utf8ByteSize := by
  rcases Division.exists_division before with ⟨d, rfl⟩ | ⟨d, rest, rfl, earlier⟩
  · rw [d.decode_raw_append faulty] at fails
    obtain rfl := Except.error.inj fails
    exact Nat.le_refl _
  · have still : Faulty (rest ++ ("&" ++ after)).toList := by
      rw [amp_append, String.toList_append, String.toList_ofList]
      exact earlier.append after.toList
    rw [String.append_assoc, String.append_assoc, d.decode_raw_append still] at fails
    obtain rfl := Except.error.inj fails
    rw [String.append_assoc, String.utf8ByteSize_append]
    exact Nat.le_add_right _ _

/-- What may be written for a character: the character, unless it is an `&`, or a
reference to it. -/
def Stands (c : Char) (written : List Char) : Prop :=
  (c ≠ '&' ∧ written = [c]) ∨ ∃ name, Refers c name ∧ written = '&' :: (name ++ [';'])

private theorem decode_stands {c : Char} {written : List Char} (stands : Stands c written) :
    decode (String.ofList written) = .ok (String.ofList [c]) := by
  rcases stands with ⟨plain, rfl⟩ | ⟨name, refers, rfl⟩
  · exact decode_char plain
  · have known := reference?_of_refers refers
    exact decode_reference known (not_mem_of_reference? known (by decide))

theorem decode_flatten {cs : List Char} {written : List (List Char)}
    (stands : List.Forall₂ Stands cs written) :
    decode (String.ofList written.flatten) = .ok (String.ofList cs) := by
  induction stands with
  | nil => rfl
  | @cons c first cs rest one _ ih =>
    rw [List.flatten_cons, String.ofList_append, ← List.singleton_append, String.ofList_append]
    exact decode_append_of_ok (decode_stands one) ih

/-- A text decodes exactly when it divides into literal parts and references, which it does
in one way only. Otherwise the first `&` that begins no reference is told, and all ahead of
it decodes. So a text that decodes can be cut off from what follows it, and whatever is
written for the characters of a text decodes to that text. -/
theorem decode_by_parts :
    (∀ raw out, decode raw = .ok out ↔ ∃ d : Division, d.raw = raw ∧ d.text = out) ∧
    Function.Injective Division.raw ∧
    (∀ raw, (∀ d : Division, d.raw ≠ raw) →
      ∃ before after, raw = before ++ "&" ++ after ∧ Faulty after.toList ∧
        (∀ earlier later, raw = earlier ++ "&" ++ later → Faulty later.toList →
          before.utf8ByteSize ≤ earlier.utf8ByteSize) ∧
        (∃ out, decode before = .ok out) ∧
        decode raw = .error ⟨before.utf8ByteSize, String.ofList (opened after.toList)⟩) ∧
    (∀ left right x, decode left = .ok x →
      (∀ y, decode right = .ok y → decode (left ++ right) = .ok (x ++ y)) ∧
      ∀ k text, decode right = .error ⟨k, text⟩ →
        decode (left ++ right) = .error ⟨left.utf8ByteSize + k, text⟩) ∧
    ∀ (s : String) (written : List (List Char)), List.Forall₂ Stands s.toList written →
      decode (String.ofList written.flatten) = .ok s := by
  refine ⟨decode_eq_ok_iff, Division.raw_injective, ?_, ?_, ?_⟩
  · intro raw undivided
    rcases Division.exists_division raw with ⟨d, divided⟩ | ⟨d, after, rfl, faulty⟩
    · exact absurd divided (undivided d)
    · have fails := d.decode_raw_append faulty
      refine ⟨d.raw, after, rfl, faulty, ?_, ⟨d.text, d.decode_raw⟩, fails⟩
      intro earlier later split faulty'
      rw [split] at fails
      exact offset_le_of_faulty faulty' fails
  · intro left right x decoded
    constructor
    · intro y also
      exact decode_append_of_ok decoded also
    · intro k text fails
      rw [decode_append decoded, fails]
      rfl
  · intro s written stands
    have decoded := decode_flatten stands
    rwa [String.ofList_toList] at decoded

theorem decode_by_parts_of_two_bytes :
    decode "é&lt;" = .ok "é<" ∧ decode "x&no;&" = .error ⟨1, "&no;"⟩ ∧
      decode ("é&lt;" ++ "x&no;&") = .error ⟨7, "&no;"⟩ := by
  have decoded : decode "é&lt;" = .ok "é<" := rfl
  have fails : decode "x&no;&" = .error ⟨1, "&no;"⟩ := rfl
  have cut := (decode_by_parts.2.2.2.1 "é&lt;" "x&no;&" "é<" decoded).2 1 "&no;" fails
  exact ⟨decoded, fails, cut⟩

end Variability.Markup
