import Variability.Text.Utf8

/-! The bytes of a text that are ASCII stand for its ASCII characters and for
nothing else, so what is looked for among the bytes may be looked for among the
characters. A text that stands between two others is cut out by its offsets, and
wherever an ASCII byte stands it can be cut on both sides of it. -/
namespace Variability.Text

@[simp] theorem bytes_append (s t : String) : bytes (s ++ t) = bytes s ++ bytes t := by
  simp [bytes, String.toByteArray_append]

theorem bytes_eq_flatMap (s : String) : bytes s = s.toList.flatMap String.utf8EncodeChar := by
  have encoded : s.toByteArray = s.toList.utf8Encode := by
    rw [← String.toByteArray_ofList, String.ofList_toList]
  rw [bytes, encoded, List.utf8Encode, List.toList_data_toByteArray]

@[simp] theorem bytes_ofList (cs : List Char) :
    bytes (String.ofList cs) = cs.flatMap String.utf8EncodeChar := by
  rw [bytes_eq_flatMap, String.toList_ofList]

@[simp] theorem bytes_inj {s t : String} : bytes s = bytes t ↔ s = t := by
  rw [bytes, bytes, Array.toList_inj, ← ByteArray.ext_iff, String.toByteArray_inj]

@[simp] theorem length_bytes (s : String) : (bytes s).length = s.utf8ByteSize := by
  rw [bytes, Array.length_toList]
  rfl

theorem eq_empty_of_bytes {s : String} (byteless : bytes s = []) : s = "" := by
  rw [← String.utf8ByteSize_eq_zero_iff, ← length_bytes, byteless]
  rfl

@[simp] theorem slice_between (before s after : String) :
    slice (before ++ s ++ after).toByteArray before.utf8ByteSize (before ++ s).utf8ByteSize = s := by
  have cut : (before ++ s ++ after).toByteArray.extract before.utf8ByteSize
      (before ++ s).utf8ByteSize = s.toByteArray := by
    rw [String.toByteArray_append, String.utf8ByteSize_append]
    have left := ByteArray.extract_append_size_add (a := before.toByteArray)
      (b := s.toByteArray ++ after.toByteArray) (i := 0) (j := s.utf8ByteSize)
    rw [ByteArray.extract_append_eq_left String.size_toByteArray.symm] at left
    rw [String.toByteArray_append, ByteArray.append_assoc]
    simpa using left
  rw [slice, cut, String.fromUTF8?, dif_pos s.isValidUTF8]
  rfl

theorem slice_inside (before lead s trail after : String) :
    slice (before ++ (lead ++ (s ++ trail)) ++ after).toByteArray
      (before.utf8ByteSize + lead.utf8ByteSize)
      (before.utf8ByteSize + lead.utf8ByteSize + s.utf8ByteSize) = s := by
  have := slice_between (before ++ lead) s (trail ++ after)
  simpa only [String.utf8ByteSize_append, String.append_assoc, Nat.add_assoc] using this

theorem slice_append_left (source more : ByteArray) (start : Nat) {stop : Nat}
    (inside : stop ≤ source.size) : slice (source ++ more) start stop = slice source start stop := by
  have rest : more.extract (start - source.size) 0 = ByteArray.empty :=
    ByteArray.extract_eq_empty_iff.mpr (by omega)
  rw [slice, ByteArray.extract_append, Nat.sub_eq_zero_of_le inside, rest, ByteArray.append_empty,
    slice]

@[simp] theorem slice_self (source : ByteArray) (start : Nat) : slice source start start = "" := by
  have cut : source.extract start start = ByteArray.empty :=
    ByteArray.extract_eq_empty_iff.mpr (by omega)
  rw [slice, cut]
  rfl

private theorem extract_append_of_le (first second : ByteArray) {start : Nat} (stop : Nat)
    (beyond : first.size ≤ start) : (first ++ second).extract start stop =
      second.extract (start - first.size) (stop - first.size) := by
  have cut : first.extract start stop = ByteArray.empty :=
    ByteArray.extract_eq_empty_iff.mpr (by omega)
  rw [ByteArray.extract_append, cut, ByteArray.empty_append]

theorem slice_insert (before between after : String) (start stop : Nat)
    (later : before.utf8ByteSize ≤ start) :
    slice (before ++ after).toByteArray start stop =
      slice (before ++ between ++ after).toByteArray (start + between.utf8ByteSize)
        (stop + between.utf8ByteSize) := by
  have later' : (before ++ between).utf8ByteSize ≤ start + between.utf8ByteSize := by
    rw [String.utf8ByteSize_append]
    omega
  rw [slice, slice, String.toByteArray_append, String.toByteArray_append,
    extract_append_of_le _ _ _ later, extract_append_of_le _ _ _ later', String.size_toByteArray,
    String.size_toByteArray, String.utf8ByteSize_append, Nat.add_sub_add_right,
    Nat.add_sub_add_right]

theorem utf8ByteSize_slice_le (source : ByteArray) (start stop : Nat) :
    (slice source start stop).utf8ByteSize ≤ stop - start := by
  unfold slice String.fromUTF8?
  split
  case isTrue valid =>
    change (source.extract start stop).size ≤ stop - start
    rw [ByteArray.size_extract]
    omega
  case isFalse => exact Nat.zero_le _

@[simp] theorem val_ofUInt8 (b : UInt8) : (Char.ofUInt8 b).val = b.toUInt32 := rfl

@[simp] theorem ofUInt8_beq (a b : UInt8) : (Char.ofUInt8 a == Char.ofUInt8 b) = (a == b) := by
  rw [Bool.eq_iff_iff, beq_iff_eq, beq_iff_eq]
  constructor
  · intro same
    have := congrArg Char.toNat same
    apply UInt8.toNat.inj
    simpa [Char.toNat] using this
  · rintro rfl
    rfl

theorem not_mem_of_high {set : List Char} (ascii : set.all (·.toNat < 128) = true) {b : UInt8}
    (high : 0x80 ≤ b) : Char.ofUInt8 b ∉ set := by
  intro found
  have low := of_decide_eq_true (List.all_eq_true.mp ascii _ found)
  rw [UInt8.le_iff_toNat_le] at high
  simp [Char.toNat] at low high
  omega

theorem encode_ascii {c : Char} (low : c.toNat ≤ 127) :
    ∃ b < 0x80, Char.ofUInt8 b = c ∧ String.utf8EncodeChar c = [b] := by
  have size : c.toNat % 256 = c.toNat := by omega
  refine ⟨UInt8.ofNat c.toNat, ?_, ?_, ?_⟩
  · simp [UInt8.lt_iff_toNat_lt]; omega
  · apply Char.ext
    apply UInt32.toNat.inj
    simp; omega
  · unfold String.utf8EncodeChar
    exact if_pos low

/-- A character is one ASCII byte or a run of bytes of which none is ASCII. -/
theorem encode_cases (c : Char) :
    (∃ b < 0x80, Char.ofUInt8 b = c ∧ String.utf8EncodeChar c = [b]) ∨
      ∀ b ∈ String.utf8EncodeChar c, 0x80 ≤ b := by
  by_cases low : c.toNat ≤ 127
  · exact .inl (encode_ascii low)
  · right
    intro b member
    unfold String.utf8EncodeChar at member
    rw [UInt8.le_iff_toNat_le]
    change ¬ c.val.toNat ≤ 127 at low
    simp only [low, if_false] at member
    split at member <;> (try split at member) <;> simp at member <;>
      rcases member with rfl | rfl | rfl | rfl <;> simp <;> omega

theorem encode_ne_nil (c : Char) : String.utf8EncodeChar c ≠ [] := by
  intro empty
  have length := String.length_utf8EncodeChar c
  rw [empty] at length
  have := c.utf8Size_pos
  simp at length
  omega

section Ascii
variable {mark : List UInt8} (ascii : ∀ b ∈ mark, b < 0x80)
include ascii

theorem prefix_toList {cs : List Char} (found : mark <+: cs.flatMap String.utf8EncodeChar) :
    mark.map Char.ofUInt8 <+: cs := by
  induction cs generalizing mark with
  | nil => simp_all
  | cons c cs ih =>
    cases mark with
    | nil => simp
    | cons b mark =>
      rw [List.flatMap_cons] at found
      rcases encode_cases c with ⟨a, _, rfl, single⟩ | high
      · rw [single, List.singleton_append, List.cons_prefix_cons] at found
        obtain ⟨rfl, found⟩ := found
        rw [List.map_cons, List.cons_prefix_cons]
        exact ⟨rfl, ih (fun b h => ascii b (List.mem_cons_of_mem _ h)) found⟩
      · obtain ⟨a, as, shape⟩ := List.exists_cons_of_ne_nil (encode_ne_nil c)
        rw [shape, List.cons_append, List.cons_prefix_cons] at found
        have low := ascii b List.mem_cons_self
        have := high a (by simp [shape])
        rw [found.1] at low
        exact absurd low (UInt8.not_lt.mpr this)

private theorem infix_of_infix_append {as bs : List UInt8} (high : ∀ a ∈ as, 0x80 ≤ a)
    (found : mark <:+: as ++ bs) : mark <:+: bs := by
  induction as with
  | nil => exact found
  | cons a as ih =>
    rw [List.cons_append, List.infix_cons_iff] at found
    rcases found with start | later
    · cases mark with
      | nil => exact List.nil_infix
      | cons b rest =>
        rw [List.cons_prefix_cons] at start
        have low := ascii b List.mem_cons_self
        rw [start.1] at low
        exact absurd low (UInt8.not_lt.mpr (high a List.mem_cons_self))
    · exact ih (fun x h => high x (List.mem_cons_of_mem _ h)) later

theorem infix_toList (s : String) (found : mark <:+: bytes s) :
    mark.map Char.ofUInt8 <:+: s.toList := by
  rw [bytes_eq_flatMap] at found
  generalize s.toList = cs at found ⊢
  induction cs with
  | nil => simp_all
  | cons c cs ih =>
    -- the mark starts with this character or after it, never between its bytes
    have shift : cs <:+: c :: cs := (List.suffix_cons c cs).isInfix
    rcases encode_cases c with ⟨b, _, _, single⟩ | high
    · have split := found
      rw [List.flatMap_cons, single, List.singleton_append, List.infix_cons_iff] at split
      rcases split with start | later
      · have whole : mark <+: (c :: cs).flatMap String.utf8EncodeChar := by
          rwa [List.flatMap_cons, single]
        exact (prefix_toList ascii whole).isInfix
      · exact (ih later).trans shift
    · rw [List.flatMap_cons] at found
      exact (ih (infix_of_infix_append ascii high found)).trans shift

end Ascii

theorem prefix_toList_of_bytes {mark rest : String}
    (ascii : (bytes mark).all (fun b => b < 0x80) = true)
    (spelled : (bytes mark).map Char.ofUInt8 = mark.toList) (found : bytes mark <+: bytes rest) :
    mark.toList <+: rest.toList := by
  rw [bytes_eq_flatMap rest] at found
  rw [← spelled]
  exact prefix_toList (fun b inside => of_decide_eq_true (List.all_eq_true.mp ascii b inside)) found

theorem mem_toList_of_mem_bytes {b : UInt8} {s : String} (low : b < 0x80) (found : b ∈ bytes s) :
    Char.ofUInt8 b ∈ s.toList := by
  obtain ⟨before, after, split⟩ := List.append_of_mem found
  have here : [b] <:+: bytes s := ⟨before, after, by simp [split]⟩
  exact (infix_toList (by simpa using low) s here).subset (by simp)

theorem not_mem_of_mem_bytes {set : List Char} (ascii : set.all (·.toNat < 128) = true)
    {s : String} (free : ∀ c ∈ s.toList, c ∉ set) {b : UInt8} (found : b ∈ bytes s) : Char.ofUInt8 b ∉ set := by
  by_cases low : b < 0x80
  · exact free _ (mem_toList_of_mem_bytes low found)
  · exact not_mem_of_high ascii (UInt8.not_lt.mp low)

/-- The first byte belongs to the first character; the others may also belong
to it when it is not ASCII. -/
theorem bytes_cons {s : String} {c : Char} {cs : List Char} (split : s.toList = c :: cs) :
    ∃ first others, bytes s = first :: others ∧ (Char.ofUInt8 first = c ∨ 0x80 ≤ first) ∧
      ∀ b ∈ others, 0x80 ≤ b ∨ b ∈ bytes (String.ofList cs) := by
  rw [bytes_eq_flatMap, split, List.flatMap_cons]
  rw [bytes_eq_flatMap, String.toList_ofList]
  rcases encode_cases c with ⟨b, _, char, single⟩ | high
  · exact ⟨b, _, by rw [single]; rfl, .inl char, fun _ found => .inr found⟩
  · obtain ⟨first, others, shape⟩ := List.exists_cons_of_ne_nil (encode_ne_nil c)
    rw [shape] at high ⊢
    refine ⟨first, _, List.cons_append, .inr (high first List.mem_cons_self), fun b found => ?_⟩
    exact (List.mem_append.mp found).imp_left fun tail => high b (List.mem_cons_of_mem _ tail)

/-- An ASCII byte is a character of its own, so what stands ahead of it and what
stands after it are whole characters. -/
theorem flatMap_encode_split {cs : List Char} {before after : List UInt8} {b : UInt8}
    (low : b < 0x80) (split : cs.flatMap String.utf8EncodeChar = before ++ b :: after) :
    ∃ front c back, cs = front ++ c :: back ∧
      front.flatMap String.utf8EncodeChar = before ∧ back.flatMap String.utf8EncodeChar = after := by
  induction cs generalizing before with
  | nil => simp at split
  | cons c cs ih =>
    rw [List.flatMap_cons] at split
    rcases encode_cases c with ⟨a, _, _, single⟩ | high
    · rw [single, List.singleton_append] at split
      cases before with
      | nil =>
        obtain ⟨rfl, rest⟩ := List.cons.inj split
        exact ⟨[], c, cs, rfl, rfl, rest⟩
      | cons _ before =>
        obtain ⟨rfl, rest⟩ := List.cons.inj split
        obtain ⟨front, d, back, rfl, head, tail⟩ := ih rest
        exact ⟨c :: front, d, back, rfl, by rw [List.flatMap_cons, single, head]; rfl, tail⟩
    · -- the byte is none of those of the character, so it comes after them
      rcases List.append_eq_append_iff.mp split with ⟨mid, rfl, rest⟩ | ⟨mid, inside, rest⟩
      · obtain ⟨front, d, back, rfl, head, tail⟩ := ih rest
        exact ⟨c :: front, d, back, rfl, by rw [List.flatMap_cons, head], tail⟩
      · cases mid with
        | nil =>
          have later : cs.flatMap String.utf8EncodeChar = [] ++ b :: after := rest.symm
          obtain ⟨front, d, back, rfl, head, tail⟩ := ih later
          refine ⟨c :: front, d, back, rfl, ?_, tail⟩
          rw [List.flatMap_cons, head, inside, List.append_nil, List.append_nil]
        | cons a mid =>
          obtain ⟨rfl, _⟩ := List.cons.inj rest
          have := high b (by rw [inside]; simp)
          exact absurd low (UInt8.not_lt.mpr this)

def EndsAscii (bs : List UInt8) : Prop := ∀ b ∈ bs.getLast?, b < 0x80

def StartsAscii (bs : List UInt8) : Prop := ∀ b ∈ bs.head?, b < 0x80

theorem endsAscii_concat (bs : List UInt8) {b : UInt8} (low : b < 0x80) : EndsAscii
    (bs ++ [b]) := by
  simpa [EndsAscii] using low

theorem startsAscii_cons {b : UInt8} (low : b < 0x80) (bs : List UInt8) : StartsAscii
    (b :: bs) := by
  simpa [StartsAscii] using low

theorem exists_append_of_endsAscii {s : String} {before after : List UInt8}
    (split : bytes s = before ++ after) (ends : EndsAscii before) :
    ∃ front back, s = front ++ back ∧ bytes front = before ∧ bytes back = after := by
  rcases List.eq_nil_or_concat before with rfl | ⟨initial, b, rfl⟩
  · exact ⟨"", s, String.empty_append.symm, rfl, split⟩
  · have low : b < 0x80 := ends b (by simp)
    have chars := split
    rw [bytes_eq_flatMap, List.concat_eq_append, List.append_assoc, List.singleton_append] at chars
    obtain ⟨front, c, back, chars, _, tail⟩ := flatMap_encode_split low chars
    have whole : s = String.ofList (front ++ [c]) ++ String.ofList back := by
      rw [← String.ofList_append, List.append_assoc, List.singleton_append, ← chars,
        String.ofList_toList]
    rw [← bytes_ofList] at tail
    rw [whole, bytes_append, tail] at split
    exact ⟨_, _, whole, List.append_cancel_right split, tail⟩

theorem exists_append_of_startsAscii {s : String} {before after : List UInt8}
    (split : bytes s = before ++ after) (starts : StartsAscii after) :
    ∃ front back, s = front ++ back ∧ bytes front = before ∧ bytes back = after := by
  cases after with
  | nil => exact ⟨s, "", String.append_empty.symm, by rw [split, List.append_nil], rfl⟩
  | cons b after =>
    have chars := split
    rw [bytes_eq_flatMap] at chars
    obtain ⟨front, c, back, chars, head, _⟩ := flatMap_encode_split (starts b rfl) chars
    have whole : s = String.ofList front ++ String.ofList (c :: back) := by
      rw [← String.ofList_append, ← chars, String.ofList_toList]
    rw [← bytes_ofList] at head
    rw [whole, bytes_append, head] at split
    exact ⟨_, _, whole, head, List.append_cancel_left split⟩

end Variability.Text
